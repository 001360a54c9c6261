import ZeroVpn.Api.AddressRequests
import ZeroVpn.Api.Statements

/-!
# The last administrator

`set_user_status`, `set_user_role` and `delete_user` refuse the caller's own
account, and the last two count the active administrators before they write;
`delete_account` checks nothing.  A check and the write after it are different
statements, so a request may take the administrator away whom the check of
another request relies on.

`admin_floor` says that an administrator remains in every interleaving in which
`delete_account` never deletes the last one, and in which a request that stands
between its check and its write is left with an administrator besides its
target.  Every request carries a note: the target for which its last check
found another administrator.
-/

namespace ZeroVpn

open Library
open Library.Attempt (Issues issues_bind issues_pure issues_lift)

namespace Api

open Db (Uuid Device User UserStatus UserRole)

/-- The rows that `count_active_admins` counts. -/
def activeAdmin (u : User) : Bool :=
  u.role == .admin && u.status == .active && u.deletedAt.isNone

theorem activeAdmin_iff {u : User} :
    activeAdmin u = true ↔ u.role = .admin ∧ u.status = .active ∧ u.deletedAt = none := by
  simp [activeAdmin, and_assoc]

/-- Some user is an active administrator. -/
def HasAdmin (users : List User) : Prop := ∃ u ∈ users, activeAdmin u = true

instance (users : List User) : Decidable (HasAdmin users) :=
  inferInstanceAs (Decidable (∃ u ∈ users, _))

/-- The requests that can take an administrator away. -/
inductive AdminOp where
  | setUserStatus (actorId targetId : Uuid) (status : UserStatus)
  | setUserRole (actorId targetId : Uuid) (role : UserRole)
  | deleteUser (actorId targetId : Uuid)
  | deleteAccount (userId : Uuid) (now : Int)

def AdminOp.handler : AdminOp → Handler Unit
  | setUserStatus actorId targetId status => Admin.setUserStatus actorId targetId status
  | setUserRole actorId targetId role => Admin.setUserRole actorId targetId role
  | deleteUser actorId targetId => Admin.deleteUser actorId targetId
  | deleteAccount userId now => Me.deleteAccount userId now

/-- Some active administrator is none of the users. -/
def AdminBesides (ids : List Uuid) (users : List User) : Prop :=
  ∃ u ∈ users, activeAdmin u = true ∧ u.id ∉ ids

instance (ids : List Uuid) (users : List User) : Decidable (AdminBesides ids users) :=
  inferInstanceAs (Decidable (∃ u ∈ users, _))

/-- The user that a statement takes out of the active administrators. -/
def DbCall.removes : DbCall → Option Uuid
  | adminSetStatus id status => if status = .active then none else some id
  | adminSetRole id role => if role = .admin then none else some id
  | softDelete id _ => some id
  | hardDelete id => some id
  | _ => none

/-- The statement of `delete_account`. -/
def DbCall.closesAccount : DbCall → Bool
  | softDelete .. => true
  | _ => false

/-- The target that a request takes out of the active administrators, besides the caller. -/
def AdminOp.target : AdminOp → Option Uuid
  | setUserStatus actorId targetId status =>
      if status = .active ∨ targetId = actorId then none else some targetId
  | setUserRole actorId targetId role =>
      if role = .admin ∨ targetId = actorId then none else some targetId
  | deleteUser actorId targetId => if targetId = actorId then none else some targetId
  | deleteAccount .. => none

def AdminOp.actor : AdminOp → Uuid
  | setUserStatus actorId _ _ => actorId
  | setUserRole actorId _ _ => actorId
  | deleteUser actorId _ => actorId
  | deleteAccount userId _ => userId

/-- The calls between the last check of a request that another administrator exists, and the
write; a request whose next call is the count will check once more. -/
def AdminOp.awaitsWrite : AdminOp → ApiCmd → Bool
  | setUserStatus _ targetId _, .sql (.findUser id) => id == targetId
  | setUserStatus .., .sql (.adminSetStatus ..) => true
  | setUserRole _ targetId _, .sql (.findUser id) => id == targetId
  | setUserRole .., .sql (.adminSetRole ..) => true
  | deleteUser _ targetId, .sql (.findUser id) => id == targetId
  | deleteUser .., .sql (.listForUser _) => true
  | deleteUser .., .sql (.hardDelete _) => true
  | _, _ => false

/-- The target of a request that stands between its check and its write. -/
def AdminOp.pendingOn (op : AdminOp) (c : ApiCmd) : Option Uuid :=
  if op.awaitsWrite c then op.target else none

def pendingAt (p : RequestPool AdminOp) (j : Nat) : Option Uuid :=
  match nextCall p j with
  | some (op, c) => op.pendingOn c
  | none => none

/-- The user whom an event takes out of the active administrators, and whether it closes an
account. -/
def removal (p : RequestPool AdminOp) (e : PoolEvent AdminOp Unit) : Option (Uuid × Bool) :=
  (acceptedCall p e).bind fun q => q.removes.map fun x => (x, q.closesAccount)

/-- An administrator is left besides the user `x` and the target of a request. -/
def LeavesOther (users : List User) (x : Uuid) : Option Uuid → Prop
  | some t => AdminBesides [x, t] users
  | none => True

instance (users : List User) (x : Uuid) (target : Option Uuid) :
    Decidable (LeavesOther users x target) :=
  match target with
  | some t => inferInstanceAs (Decidable (AdminBesides [x, t] users))
  | none => .isTrue trivial

/-- The condition on one event, a write that takes the user `x` out of the active
administrators: `delete_account` leaves one, and so does any write for every other request
that stands between its check and its write. -/
def LeavesAdmins (p : RequestPool AdminOp) : PoolEvent AdminOp Unit → Prop
  | .step i ok =>
      ∀ r ∈ removal p (.step i ok),
        (r.2 = true → AdminBesides [r.1] p.shared.db.users) ∧
          ∀ j < p.threads.length, j ≠ i → LeavesOther p.shared.db.users r.1 (pendingAt p j)
  | _ => True

instance (p : RequestPool AdminOp) (e : PoolEvent AdminOp Unit) : Decidable (LeavesAdmins p e) :=
  match e with
  | .step i ok =>
      decidable_of_iff
        ((removal p (.step i ok)).all
          (fun r => decide ((r.2 = true → AdminBesides [r.1] p.shared.db.users) ∧
            ∀ j < p.threads.length, j ≠ i →
              LeavesOther p.shared.db.users r.1 (pendingAt p j))) = true)
        (by simp only [LeavesAdmins, Option.all_eq_true, decide_eq_true_iff, Option.mem_def])
  | .spawn _ | .crash _ | .restart _ => .isTrue trivial

theorem target_ne_actor (op : AdminOp) : op.target ≠ some op.actor := by
  intro h
  cases op with
  | deleteAccount userId now =>
      cases h
  | setUserStatus actorId targetId status | setUserRole actorId targetId role =>
      simp only [AdminOp.target] at h
      split at h
      · cases h
      · rename_i hother
        exact hother (Or.inr (Option.some.inj h))
  | deleteUser actorId targetId =>
      simp only [AdminOp.target] at h
      split at h
      · cases h
      · rename_i hother
        exact hother (Option.some.inj h)

/-- The read of the caller is no wait for the write. -/
theorem pendingOn_actor (op : AdminOp) : op.pendingOn (.sql (.findUser op.actor)) = none := by
  cases op with
  | deleteAccount userId now =>
      rfl
  | setUserStatus actorId targetId _ | setUserRole actorId targetId _
  | deleteUser actorId targetId =>
      by_cases hsame : actorId = targetId
      · simp [AdminOp.pendingOn, AdminOp.target, AdminOp.actor, hsame]
      · simp [AdminOp.pendingOn, AdminOp.awaitsWrite, AdminOp.actor, hsame]

section Writes

variable {users : List User} {ids : List Uuid}

theorem hasAdmin_of_besides (h : AdminBesides ids users) : HasAdmin users := by
  obtain ⟨u, hu, hadmin, _⟩ := h
  exact ⟨u, hu, hadmin⟩

/-- An update that spares an administrator. -/
theorem admin_updateWhere {p : User → Bool} {f : User → User} {u : User} (hu : u ∈ users)
    (hadmin : activeAdmin u = true) (hf : p u = true → (f u).id = u.id ∧ activeAdmin (f u) = true) :
    ∃ u' ∈ updateWhere p f users, u'.id = u.id ∧ activeAdmin u' = true := by
  cases hp : p u with
  | true =>
      exact ⟨f u, mem_updateWhere_of_pos hu hp, hf hp⟩
  | false =>
      exact ⟨u, mem_updateWhere_of_not hu hp, rfl, hadmin⟩

/-- An administrator whom an accepted statement does not remove. -/
theorem admin_after (q : DbCall) {u : User} (hu : u ∈ users) (hadmin : activeAdmin u = true)
    (hnot : q.removes ≠ some u.id) :
    ∃ u' ∈ q.usersAfter users, u'.id = u.id ∧ activeAdmin u' = true := by
  obtain ⟨hrole, hstatus, hpresent⟩ := activeAdmin_iff.mp hadmin
  cases q with
  | adminSetStatus id status =>
      refine admin_updateWhere hu hadmin fun hp => ⟨rfl, activeAdmin_iff.mpr ⟨hrole, ?_, hpresent⟩⟩
      by_contra hother
      simp only [Db.Users.present, Bool.and_eq_true, beq_iff_eq] at hp
      exact hnot (by simp [DbCall.removes, hother, hp.1])
  | adminSetRole id role =>
      refine admin_updateWhere hu hadmin fun hp => ⟨rfl, activeAdmin_iff.mpr ⟨?_, hstatus, hpresent⟩⟩
      by_contra hother
      simp only [Db.Users.present, Bool.and_eq_true, beq_iff_eq] at hp
      exact hnot (by simp [DbCall.removes, hother, hp.1])
  | softDelete id now =>
      refine admin_updateWhere hu hadmin fun hp => absurd ?_ hnot
      rw [beq_iff_eq.mp hp]
      rfl
  | hardDelete id =>
      refine ⟨u, List.mem_filter.mpr ⟨hu, ?_⟩, rfl, hadmin⟩
      rw [bne_iff_ne]
      rintro rfl
      exact hnot rfl
  | promoteBootstrapAdmin id =>
      exact admin_updateWhere hu hadmin fun _ => ⟨rfl, activeAdmin_iff.mpr ⟨rfl, rfl, hpresent⟩⟩
  | resetDueUsers now next =>
      exact admin_updateWhere hu hadmin fun _ => ⟨rfl, hadmin⟩
  | createUser id email role status =>
      exact ⟨u, List.mem_append_left _ hu, rfl, hadmin⟩
  | _ =>
      exact ⟨u, hu, rfl, hadmin⟩

/-- The users after a statement that removes nobody, or only one of those set apart. -/
theorem besides_after (q : DbCall) {apart : List Uuid} (h : AdminBesides apart users)
    (hremoves : ∀ x, q.removes = some x → x ∈ apart) (hids : ∀ x ∈ ids, x ∈ apart) :
    AdminBesides ids (q.usersAfter users) := by
  obtain ⟨u, hu, hadmin, hout⟩ := h
  have hnot : q.removes ≠ some u.id := fun hx => hout (hremoves u.id hx)
  obtain ⟨u', hu', hid, hadmin'⟩ := admin_after q hu hadmin hnot
  refine ⟨u', hu', hadmin', ?_⟩
  rw [hid]
  exact fun hmem => hout (hids u.id hmem)

/-- Of two active administrators one is not the target. -/
theorem besides_of_count {db : Db} (t : Uuid) (h : 2 ≤ Db.Users.countActiveAdmins db) :
    AdminBesides [t] db.users := by
  by_contra hnone
  have hall : ∀ u ∈ db.users.filter activeAdmin, u.id = t := by
    intro u hu
    obtain ⟨hmem, hadmin⟩ := List.mem_filter.mp hu
    by_contra hid
    exact hnone ⟨u, hmem, hadmin, by simpa using hid⟩
  have hids : ((db.users.filter activeAdmin).map User.id).Nodup :=
    db.valid.users_id.sublist (List.filter_sublist.map User.id)
  have hreplicate : (db.users.filter activeAdmin).map User.id =
      List.replicate (db.users.filter activeAdmin).length t := by
    rw [List.eq_replicate_iff]
    refine ⟨List.length_map _, ?_⟩
    intro id hid
    obtain ⟨u, hu, rfl⟩ := List.mem_map.mp hid
    exact hall u hu
  rw [hreplicate, List.nodup_replicate] at hids
  have hlength : Db.Users.countActiveAdmins db = (db.users.filter activeAdmin).length := rfl
  omega

end Writes

section Requests

variable {s : Sys} {μ : Nat → Option Uuid} {i : Nat}

/-- There is an active administrator, and one besides the target of every note. -/
structure Floored (s : Sys) (μ : Nat → Option Uuid) : Prop where
  admin : HasAdmin s.db.users
  noted : ∀ j t, μ j = some t → AdminBesides [t] s.db.users

/-- A request has a note exactly between its check and its write, and the administrative
routes only write with a note. -/
def Vouches (op : AdminOp) (c : ApiCmd) (m : Option Uuid) : Prop :=
  m = op.pendingOn c ∧
    ∀ q, c = .sql q → ∀ x, q.removes = some x → q.closesAccount = true ∨ m = some x

/-- The condition of a call, in terms of the notes. -/
def CallLeavesAdmins (i : Nat) (_ : AdminOp) (c : ApiCmd) (ok : Bool) (s : Sys)
    (μ : Nat → Option Uuid) : Prop :=
  ∀ q, c.acceptedSql ok s.db = some q → ∀ x, q.removes = some x →
    (q.closesAccount = true → AdminBesides [x] s.db.users) ∧
      ∀ j t, j ≠ i → μ j = some t → AdminBesides [x, t] s.db.users

/-- A request with note `m` may run `p`, and ends with `Q`. -/
abbrev Checks (i : Nat) (op : AdminOp) {α : Type} (Q : Except ApiError α → Option Uuid → Prop)
    (p : Handler α) (m : Option Uuid) : Prop :=
  Follows (requestSystem AdminOp.handler) Floored Vouches CallLeavesAdmins i op Q p.run m

/-- Giving a request another note. -/
theorem Floored.note (h : Floored s μ) (i : Nat) {m : Option Uuid}
    (hm : ∀ t, m = some t → AdminBesides [t] s.db.users) : Floored s (Function.update μ i m) := by
  refine ⟨h.admin, ?_⟩
  intro j t hj
  by_cases hji : j = i
  · rw [hji, Function.update_self] at hj
    exact hm t hj
  · rw [Function.update_of_ne hji] at hj
    exact h.noted j t hj

/-- The statements that remove nobody. -/
def Spares (c : ApiCmd) : Prop := ∀ q, c = .sql q → q.removes = none

theorem Floored.spares (h : Floored s μ) {c : ApiCmd} (hc : Spares c) (ok : Bool) :
    Floored (c.sem ok s).1 μ := by
  have hrows := sem_rows c ok s
  cases hcall : c.acceptedSql ok s.db with
  | none =>
      rw [hcall] at hrows
      have hsame : (c.sem ok s).1.db = s.db := hrows
      exact ⟨hsame ▸ h.admin, hsame ▸ h.noted⟩
  | some q =>
      rw [hcall] at hrows
      have hnone := hc q (ApiCmd.acceptedSql_eq_some hcall)
      have hafter : ∀ {ids}, AdminBesides ids s.db.users →
          AdminBesides ids (c.sem ok s).1.db.users := by
        intro ids hids
        rw [hrows.1]
        refine besides_after q hids ?_ fun x hx => hx
        intro x hx
        rw [hnone] at hx
        cases hx
      constructor
      · obtain ⟨u, hu, hadmin⟩ := h.admin
        exact hasAdmin_of_besides (@hafter [] ⟨u, hu, hadmin, List.not_mem_nil⟩)
      · exact fun j t hj => hafter (h.noted j t hj)

/-- A write with a note, or of `delete_account`. -/
theorem Floored.write (h : Floored s μ) {op : AdminOp} {c : ApiCmd} {ok : Bool}
    (hvouches : Vouches op c (μ i)) (hcond : CallLeavesAdmins i op c ok s μ) :
    Floored (c.sem ok s).1 (Function.update μ i none) := by
  have hrows := sem_rows c ok s
  cases hcall : c.acceptedSql ok s.db with
  | none =>
      rw [hcall] at hrows
      have hsame : (c.sem ok s).1.db = s.db := hrows
      refine Floored.note ⟨hsame ▸ h.admin, hsame ▸ h.noted⟩ i ?_
      intro t hnone
      cases hnone
  | some q =>
      rw [hcall] at hrows
      have hq := ApiCmd.acceptedSql_eq_some hcall
      cases hremoves : q.removes with
      | none =>
          have hspares : Spares c := by
            intro q' hq'
            rw [← ApiCmd.sql.inj (hq.symm.trans hq'), hremoves]
          refine (h.spares hspares ok).note i ?_
          intro t hnone
          cases hnone
      | some x =>
          obtain ⟨hcloses, hothers⟩ := hcond q hcall x hremoves
          have hapart : ∀ x', q.removes = some x' → x' = x := by
            intro x' hx'
            rw [hremoves] at hx'
            exact (Option.some.inj hx').symm
          -- the check of this request, or the condition on `delete_account`
          have hbesides : AdminBesides [x] s.db.users := by
            rcases hvouches.2 q hq x hremoves with haccount | hnote
            · exact hcloses haccount
            · exact h.noted i x hnote
          constructor
          · rw [hrows.1]
            have hleft : AdminBesides [] (q.usersAfter s.db.users) := by
              refine besides_after q hbesides ?_ ?_
              · exact fun x' hx' => List.mem_singleton.mpr (hapart x' hx')
              · exact fun _ hmem => absurd hmem List.not_mem_nil
            exact hasAdmin_of_besides hleft
          · intro j t hj
            by_cases hji : j = i
            · rw [hji, Function.update_self] at hj
              cases hj
            · rw [Function.update_of_ne hji] at hj
              rw [hrows.1]
              refine besides_after q (hothers j t hji hj) ?_ ?_
              · intro x' hx'
                rw [hapart x' hx']
                exact List.mem_cons_self
              · exact fun y hy => List.mem_cons_of_mem _ hy

variable {op : AdminOp} {α β : Type}

/-- The calls of a request that neither waits for its write nor removes anybody. -/
def Idle (op : AdminOp) (c : ApiCmd) : Prop := op.awaitsWrite c = false ∧ Spares c

theorem idle_checks {Q : Except ApiError α → Option Uuid → Prop} {p : Handler α}
    (hp : Issues (Idle op) p) (hQ : ∀ r, Q r none) : Checks i op Q p none := by
  refine follows_of_calls (P := Idle op) ?_ ?_ hp hQ
  · rintro c ⟨hawaits, hspares⟩
    refine ⟨?_, ?_⟩
    · rw [AdminOp.pendingOn, hawaits]
      rfl
    · rintro q hq x hx
      rw [hspares q hq] at hx
      cases hx
  · intro c s μ ok hc hs _
    exact hs.spares hc.2 ok

/-- A statement that reads while the request waits for its write. -/
theorem vouches_read {q : DbCall} (hremoves : q.removes = none)
    (hawaits : op.awaitsWrite (.sql q) = true) : Vouches op (.sql q) op.target := by
  refine ⟨by rw [AdminOp.pendingOn, hawaits, if_pos rfl], ?_⟩
  rintro q' hq' x hx
  cases hq'
  rw [hremoves] at hx
  cases hx

theorem vouches_idle {c : ApiCmd} (hc : Idle op c) : Vouches op c none := by
  refine ⟨by rw [AdminOp.pendingOn, hc.1]; rfl, ?_⟩
  intro q hq x hx
  rw [hc.2 q hq] at hx
  cases hx

theorem failIf_checks {Q : Except ApiError β → Option Uuid → Prop} {b : Bool} {e : ApiError}
    {k : Unit → Handler β} {m : Option Uuid} (herror : Q (.error e) m)
    (hk : b = false → Checks i op Q (k ()) m) : Checks i op Q (failIf b e >>= k) m := by
  cases b with
  | true =>
      exact herror
  | false =>
      exact hk rfl

theorem okOr_checks {Q : Except ApiError β → Option Uuid → Prop} {found : Option α} {e : ApiError}
    {k : α → Handler β} {m : Option Uuid} (herror : Q (.error e) m)
    (hk : ∀ a, found = some a → Checks i op Q (k a) m) : Checks i op Q (okOr found e >>= k) m := by
  cases found with
  | none =>
      exact herror
  | some a =>
      exact hk a rfl

/-- The note of a request that has read its own administrator. -/
def AdminOp.noteOf (op : AdminOp) (found : Option User) : Option Uuid :=
  if found.any activeAdmin then op.target else none

theorem readActor_checks :
    Checks i op
      (fun (r : Except ApiError (Option User)) m => match r with
        | .ok found => m = op.noteOf found ∧ ∀ user, found = some user →
            user.id = op.actor ∧ user.deletedAt = none
        | .error _ => True)
      (sql (.findUser op.actor)) none := by
  refine ⟨⟨(pendingOn_actor op).symm, fun q hq x hx => by cases hq; cases hx⟩, ?_⟩
  intro s μ ok hI hi _
  cases ok with
  | false =>
      exact ⟨none, hI.note i (fun t hnone => by cases hnone), trivial⟩
  | true =>
      refine ⟨op.noteOf (Db.Users.findById op.actor s.db), ?_, rfl, ?_⟩
      · refine hI.note i fun t ht => ?_
        unfold AdminOp.noteOf at ht
        split at ht
        · rename_i hany
          obtain ⟨user, hfound, hadmin⟩ := Option.any_eq_true _ _ |>.mp hany
          refine ⟨user, List.mem_of_find?_eq_some hfound, hadmin, ?_⟩
          rw [List.mem_singleton, user_id_of_findById hfound]
          rintro rfl
          exact target_ne_actor op ht
        · cases ht
      · intro user hfound
        have hpresent := List.find?_some hfound
        simp only [Db.Users.present, Bool.and_eq_true, Option.isNone_iff_eq_none] at hpresent
        exact ⟨user_id_of_findById hfound, hpresent.2⟩

/-- A caller that is signed in has an active account. -/
theorem currentUser_checks :
    Checks i op (fun r m => ∀ user, r = .ok user →
      user.id = op.actor ∧ user.deletedAt = none ∧ user.status = .active ∧
        m = op.noteOf (some user)) (currentUser op.actor) none := by
  unfold currentUser
  refine Follows.attempt_bind readActor_checks ?_ ?_
  · rintro found m ⟨rfl, hfound⟩
    refine okOr_checks (fun _ herror => by cases herror) fun user hsome => ?_
    subst hsome
    refine failIf_checks (fun _ herror => by cases herror) fun hstatus => ?_
    intro _ hok
    cases hok
    exact ⟨(hfound user rfl).1, (hfound user rfl).2, by simpa using hstatus, rfl⟩
  · intro e m _ user herror
    cases herror

/-- A caller that passes the check is an active administrator besides the target. -/
theorem requireAdmin_checks (actorId : Uuid) (hactor : op.actor = actorId) :
    Checks i op (fun r m => ∀ user, r = .ok user → user.id = actorId ∧ m = op.target)
      (requireAdmin actorId) none := by
  subst hactor
  unfold requireAdmin
  refine Follows.attempt_bind currentUser_checks ?_ ?_
  · intro user m hm
    obtain ⟨hid, hpresent, hstatus, rfl⟩ := hm user rfl
    refine failIf_checks (fun _ herror => by cases herror) fun hrole => ?_
    intro _ hok
    cases hok
    refine ⟨hid, ?_⟩
    have hadmin : activeAdmin user = true :=
      activeAdmin_iff.mpr ⟨by simpa using hrole, hstatus, hpresent⟩
    simp [AdminOp.noteOf, hadmin]
  · intro e m _ user herror
    cases herror

/-- The read of the target, which the request goes on with. -/
theorem findTarget_checks {targetId : Uuid} (note : Option User → Option Uuid)
    (hnote : ∀ found t, note found = some t → op.target = some t)
    (hawaits : op.awaitsWrite (.sql (.findUser targetId)) = true) :
    Checks i op
      (fun (r : Except ApiError (Option User)) m => ∀ found, r = .ok found →
        m = note found ∧ ∀ user, found = some user → user.id = targetId)
      (sql (.findUser targetId)) op.target := by
  refine ⟨vouches_read rfl hawaits, ?_⟩
  intro s μ ok hI hi _
  cases ok with
  | false =>
      refine ⟨none, hI.note i (fun t hnone => by cases hnone), ?_⟩
      intro found herror
      cases herror
  | true =>
      refine ⟨note (Db.Users.findById targetId s.db), ?_, ?_⟩
      · exact hI.note i fun t ht => hI.noted i t (hi.trans (hnote _ t ht))
      · intro found hok
        cases hok
        exact ⟨rfl, fun user hfound => user_id_of_findById hfound⟩

/-- The note of a request on an active administrator, who is counted next. -/
def AdminOp.unlessCounted (op : AdminOp) (target : User) : Option Uuid :=
  if target.role == .admin && target.status == .active then none else op.target

/-- The note of a request that has read its target. -/
def AdminOp.afterTarget (op : AdminOp) (found : Option User) : Option Uuid :=
  found.elim none op.unlessCounted

theorem target_of_afterTarget {found : Option User} {t : Uuid} (h : op.afterTarget found = some t) :
    op.target = some t := by
  cases found with
  | none =>
      cases h
  | some target =>
      simp only [AdminOp.afterTarget, Option.elim_some, AdminOp.unlessCounted] at h
      split at h
      · cases h
      · exact h

/-- The floor checks once more that an administrator exists besides the target. -/
theorem keepAdminFloor_checks (target : User) (message : String) :
    Checks i op (fun r m => ∀ u, r = .ok u → m = op.target)
      (Admin.keepAdminFloor target message) (op.unlessCounted target) := by
  unfold Admin.keepAdminFloor AdminOp.unlessCounted
  split
  · have hidle : Idle op (.sql .countActiveAdmins) :=
      ⟨by cases op <;> rfl, fun q hq => by cases hq; rfl⟩
    have hcount : Checks i op
        (fun (r : Except ApiError Nat) m => ∀ n, r = .ok n → 2 ≤ n → m = op.target)
        (sql .countActiveAdmins) none := by
      refine ⟨vouches_idle hidle, ?_⟩
      intro s μ ok hI hi _
      cases ok with
      | false =>
          refine ⟨none, hI.note i (fun t hnone => by cases hnone), ?_⟩
          intro n herror
          cases herror
      | true =>
          by_cases htwo : 2 ≤ Db.Users.countActiveAdmins s.db
          · exact ⟨op.target, hI.note i fun t _ => besides_of_count t htwo, fun _ _ _ => rfl⟩
          · refine ⟨none, hI.note i (fun t hnone => by cases hnone), ?_⟩
            intro n hok
            cases hok
            exact fun h => absurd h htwo
    refine hcount.attempt_bind ?_ ?_
    · intro n m hm
      by_cases htwo : 2 ≤ n
      · rw [hm n rfl htwo]
        cases hfail : decide (n ≤ 1) with
        | true =>
            intro u herror
            cases herror
        | false =>
            exact fun _ _ => rfl
      · have hfail : decide (n ≤ 1) = true := by
          rw [decide_eq_true_eq]
          omega
        rw [hfail]
        intro u herror
        cases herror
    · intro e m _ u herror
      cases herror
  · exact fun _ _ => rfl

/-- The write on the target. -/
theorem write_checks {q : DbCall} (hawaits : op.awaitsWrite (.sql q) = true)
    (hremoves : ∀ x, q.removes = some x → op.target = some x) :
    Checks i op (fun _ m => m = none) (sql q) op.target := by
  have hvouches : Vouches op (.sql q) op.target := by
    refine ⟨by rw [AdminOp.pendingOn, hawaits, if_pos rfl], ?_⟩
    intro q' hq x hx
    cases hq
    exact Or.inr (hremoves x hx)
  refine ⟨hvouches, ?_⟩
  intro s μ ok hI hi hcond
  exact ⟨none, hI.write (hi ▸ hvouches) hcond, rfl⟩

/-- Peers are looked after without a check. -/
theorem syncPeers_issues {P : ApiCmd → Prop} (hlist : ∀ id, P (.sql (.listForUser id)))
    (hfind : ∀ id, P (.sql (.findServer id))) (hremove : ∀ key, P (.removePeer key))
    (hadd : ∀ key ip psk keepalive, P (.addPeer key ip psk keepalive))
    (targetId : Uuid) (prior status : UserStatus) :
    Issues P (Admin.syncPeers targetId prior status) := by
  have hkeepalive : ∀ id, Issues P (Devices.lookupKeepalive id) := by
    intro id
    refine issues_bind (issues_call (hfind id)) fun found => ?_
    split
    · exact issues_pure _
    · exact issues_pure _
    · exact issues_pure _
  have hcached : ∀ cache id, Issues P (Admin.cachedKeepalive cache id) := by
    intro cache id
    unfold Admin.cachedKeepalive
    split
    · exact issues_pure _
    · exact issues_bind (hkeepalive id) fun v => issues_pure _
  have hdrop : ∀ ds, Issues P (Admin.removeActivePeers ds) := by
    intro ds
    induction ds with
    | nil =>
        exact issues_pure ()
    | cons d ds ih =>
        refine issues_bind ?_ fun _ => ih
        unfold Admin.removePeerIfActive
        split
        · exact issues_bind (issues_call (hremove _)) fun _ => issues_pure ()
        · exact issues_pure ()
  have hrestore : ∀ ds cache, Issues P (Admin.restoreActivePeers cache ds) := by
    intro ds
    induction ds with
    | nil =>
        exact fun _ => issues_pure ()
    | cons d ds ih =>
        intro cache
        unfold Admin.restoreActivePeers
        split
        · exact ih cache
        · refine issues_bind (hcached cache d.serverId) fun found => ?_
          exact issues_bind (issues_call (hadd _ _ _ _)) fun _ => ih found.2
  unfold Admin.syncPeers
  split
  · refine issues_bind (issues_call (hlist targetId)) fun listed => ?_
    split
    · exact hdrop _
    · exact issues_pure ()
  · split
    · refine issues_bind (issues_call (hlist targetId)) fun listed => ?_
      split
      · exact hrestore _ _
      · exact issues_pure ()
    · exact issues_pure ()

/-- A call that is no statement. -/
theorem idle_of_no_sql {c : ApiCmd} (hc : ∀ q, c ≠ .sql q) : Idle op c := by
  refine ⟨?_, fun q hq => absurd hq (hc q)⟩
  cases c with
  | sql q =>
      exact absurd rfl (hc q)
  | _ =>
      cases op <;> rfl

/-- The cleanup after a deletion checks nothing. -/
theorem forgetDevices_idle (releaser : Releaser) (ds : List Device) :
    Issues (Idle op) (Admin.forgetDevices releaser ds) := by
  have hidle : ∀ c : ApiCmd, (∀ q, c ≠ .sql q) → Idle op c := fun c hc => idle_of_no_sql hc
  induction ds with
  | nil =>
      exact issues_pure ()
  | cons d ds ih =>
      refine issues_bind ?_ fun _ => ?_
      · unfold Admin.removePeerIfActive
        split
        · exact issues_bind (issues_call (hidle _ fun q hq => by cases hq)) fun _ => issues_pure ()
        · exact issues_pure ()
      · exact issues_bind (issues_releaseAddress (hidle _ fun q hq => by cases hq)
          (hidle _ fun q hq => by cases hq)) fun _ => ih

theorem setUserStatus_checks (actorId targetId : Uuid) (status : UserStatus) :
    Checks i (.setUserStatus actorId targetId status) (fun _ _ => True)
      (Admin.setUserStatus actorId targetId status) none := by
  unfold Admin.setUserStatus
  refine (requireAdmin_checks actorId rfl).attempt_bind ?_ fun _ _ _ => trivial
  intro actor m hactor
  obtain ⟨hid, rfl⟩ := hactor actor rfl
  refine failIf_checks trivial fun hother => ?_
  rw [hid] at hother
  refine (findTarget_checks (fun _ => _) (fun _ _ h => h) (by simp [AdminOp.awaitsWrite])).attempt_bind
    ?_ fun _ _ _ => trivial
  intro found m hfound
  obtain ⟨rfl, _⟩ := hfound found rfl
  refine okOr_checks trivial fun target _ => ?_
  refine failIf_checks trivial fun _ => ?_
  refine (write_checks rfl ?_).attempt_bind ?_ fun _ _ _ => trivial
  · intro x hx
    have hne : targetId ≠ actorId := by simpa using hother
    simpa [DbCall.removes, AdminOp.target, hne] using hx
  · rintro n m rfl
    refine idle_checks ?_ fun _ => trivial
    refine issues_bind (issues_failIf _ _) fun _ => ?_
    refine issues_bind (syncPeers_issues ?_ ?_ ?_ ?_ _ _ _) fun _ => ?_
    · exact fun id => ⟨rfl, fun q hq => by cases hq; rfl⟩
    · exact fun id => ⟨rfl, fun q hq => by cases hq; rfl⟩
    · exact fun key => idle_of_no_sql fun q hq => by cases hq
    · exact fun key ip psk keepalive => idle_of_no_sql fun q hq => by cases hq
    · exact issues_lift (idle_of_no_sql fun q hq => by cases hq)

theorem setUserRole_checks (actorId targetId : Uuid) (role : UserRole) :
    Checks i (.setUserRole actorId targetId role) (fun _ _ => True)
      (Admin.setUserRole actorId targetId role) none := by
  -- the count, which only a demotion takes
  have hfloor : Checks i (.setUserRole actorId targetId role)
      (fun r m => ∀ u, r = .ok u → m = (AdminOp.setUserRole actorId targetId role).target)
      (Admin.keepLastAdminRole targetId role)
      (AdminOp.setUserRole actorId targetId role).target := by
    unfold Admin.keepLastAdminRole
    split
    · refine (findTarget_checks (AdminOp.afterTarget _) (fun _ _ => target_of_afterTarget)
        (by simp [AdminOp.awaitsWrite])).attempt_bind ?_ fun _ _ _ _ herror => by cases herror
      intro found m hfound
      obtain ⟨rfl, _⟩ := hfound found rfl
      refine okOr_checks (fun _ herror => by cases herror) fun target htarget => ?_
      subst htarget
      exact keepAdminFloor_checks target _
    · exact fun _ _ => rfl
  unfold Admin.setUserRole
  refine (requireAdmin_checks actorId rfl).attempt_bind ?_ fun _ _ _ => trivial
  intro actor m hactor
  obtain ⟨hid, rfl⟩ := hactor actor rfl
  refine failIf_checks trivial fun hother => ?_
  rw [hid] at hother
  refine hfloor.attempt_bind ?_ fun _ _ _ => trivial
  intro u m hm
  rw [hm u rfl]
  refine (write_checks rfl ?_).attempt_bind ?_ fun _ _ _ => trivial
  · intro x hx
    have hne : targetId ≠ actorId := by simpa using hother
    simpa [DbCall.removes, AdminOp.target, hne] using hx
  · rintro n m rfl
    refine idle_checks ?_ fun _ => trivial
    refine issues_bind (issues_failIf _ _) fun _ => ?_
    exact issues_lift (idle_of_no_sql fun q hq => by cases hq)

theorem deleteUser_checks (actorId targetId : Uuid) :
    Checks i (.deleteUser actorId targetId) (fun _ _ => True)
      (Admin.deleteUser actorId targetId) none := by
  unfold Admin.deleteUser
  refine (requireAdmin_checks actorId rfl).attempt_bind ?_ fun _ _ _ => trivial
  intro actor m hactor
  obtain ⟨hid, rfl⟩ := hactor actor rfl
  refine failIf_checks trivial fun hother => ?_
  rw [hid] at hother
  have hne : targetId ≠ actorId := by simpa using hother
  refine (findTarget_checks (AdminOp.afterTarget _) (fun _ _ => target_of_afterTarget)
    (by simp [AdminOp.awaitsWrite])).attempt_bind ?_ fun _ _ _ => trivial
  intro found m hfound
  obtain ⟨rfl, htarget⟩ := hfound found rfl
  refine okOr_checks trivial fun target hsome => ?_
  subst hsome
  have htid := htarget target rfl
  refine (keepAdminFloor_checks target _).attempt_bind ?_ fun _ _ _ => trivial
  intro u m hm
  rw [hm u rfl]
  -- the listing keeps the note
  have hlist : Checks i (.deleteUser actorId targetId)
      (fun _ m => m = (AdminOp.deleteUser actorId targetId).target)
      (trySql (.listForUser target.id)) (AdminOp.deleteUser actorId targetId).target := by
    refine ⟨vouches_read rfl rfl, ?_⟩
    intro s μ ok hI hi _
    refine ⟨(AdminOp.deleteUser actorId targetId).target, ?_, rfl⟩
    rw [← hi, Function.update_eq_self]
    exact hI.spares (c := .sql (.listForUser target.id)) (fun q hq => by cases hq; rfl) ok
  refine hlist.attempt_bind ?_ fun _ _ _ => trivial
  rintro listed m rfl
  refine (write_checks (q := .hardDelete target.id) rfl ?_).attempt_bind ?_ fun _ _ _ => trivial
  · intro x hx
    rw [htid] at hx
    simpa [DbCall.removes, AdminOp.target, hne] using hx
  · rintro _ m rfl
    refine idle_checks ?_ fun _ => trivial
    refine issues_bind (forgetDevices_idle _ _) fun _ => ?_
    exact issues_lift (idle_of_no_sql fun q hq => by cases hq)

theorem deleteAccount_checks (userId : Uuid) (now : Int) :
    Checks i (.deleteAccount userId now) (fun _ _ => True) (Me.deleteAccount userId now) none := by
  have hread : ∀ id, Idle (.deleteAccount userId now) (.sql (.findUser id)) :=
    fun id => ⟨rfl, fun q hq => by cases hq; rfl⟩
  unfold Me.deleteAccount
  have huser : Checks i (.deleteAccount userId now) (fun _ m => m = none) (currentUser userId)
      none := by
    refine idle_checks ?_ fun _ => rfl
    refine issues_bind (issues_sql (hread userId)) fun found => ?_
    refine issues_bind (issues_okOr _ _) fun user => ?_
    exact issues_bind (issues_failIf _ _) fun _ => issues_pure user
  refine huser.attempt_bind ?_ fun _ _ _ => trivial
  rintro user m rfl
  have hsoft : Checks i (.deleteAccount userId now) (fun _ m => m = none)
      (sql (.softDelete user.id now)) none := by
    have hvouches : Vouches (.deleteAccount userId now) (.sql (.softDelete user.id now)) none :=
      ⟨rfl, fun q hq x _ => by cases hq; exact Or.inl rfl⟩
    refine ⟨hvouches, ?_⟩
    intro s μ ok hI hi hcond
    exact ⟨none, hI.write (hi ▸ hvouches) hcond, rfl⟩
  refine hsoft.attempt_bind ?_ fun _ _ _ => trivial
  rintro _ m rfl
  refine idle_checks ?_ fun _ => trivial
  refine issues_bind (issues_lift (idle_of_no_sql fun q hq => by cases hq)) fun _ => ?_
  refine issues_bind (issues_call ⟨rfl, fun q hq => by cases hq; rfl⟩) fun listed => ?_
  split
  · exact forgetDevices_idle _ _
  · exact issues_pure ()

/-- Every request of the pool checks before it writes, or closes its own account. -/
theorem adminOp_checks (i : Nat) (op : AdminOp) :
    Checks i op (fun _ _ => True) op.handler none := by
  cases op with
  | setUserStatus actorId targetId status =>
      exact setUserStatus_checks actorId targetId status
  | setUserRole actorId targetId role =>
      exact setUserRole_checks actorId targetId role
  | deleteUser actorId targetId =>
      exact deleteUser_checks actorId targetId
  | deleteAccount userId now =>
      exact deleteAccount_checks userId now

end Requests

section Main

variable {p : RequestPool AdminOp} {μ : Nat → Option Uuid}

/-- The notes of a pool; a request that has ended has none. -/
def FloorNoted (p : RequestPool AdminOp) (μ : Nat → Option Uuid) : Prop :=
  Noted (requestSystem AdminOp.handler) Floored Vouches CallLeavesAdmins (fun _ _ _ => True) none
      p μ ∧
    ∀ j, nextCall p j = none → μ j = none

theorem floorNoted_of_noted (h : Noted (requestSystem AdminOp.handler) Floored Vouches
      CallLeavesAdmins (fun _ _ _ => True) none p μ) : ∃ μ', FloorNoted p μ' := by
  refine ⟨_, h.retire ⟨h.inv.admin, ?_⟩ (fun _ _ => trivial), ?_⟩
  · intro j t hj
    split at hj
    · exact h.inv.noted j t hj
    · cases hj
  · intro j hj
    simp [hj]

/-- A note is the target of a request between its check and its write. -/
theorem pendingAt_of_note (h : FloorNoted p μ) {j : Nat} {t : Uuid} (hj : μ j = some t) :
    j < p.threads.length ∧ pendingAt p j = some t := by
  cases hnext : nextCall p j with
  | none =>
      rw [h.2 j hnext] at hj
      cases hj
  | some call =>
      obtain ⟨op, c⟩ := call
      have hnote : μ j = op.pendingOn c := (h.1.suits hnext).1
      refine ⟨lt_of_nextCall hnext, ?_⟩
      simp only [pendingAt, hnext]
      exact hnote.symm.trans hj

/-- The condition on the next calls becomes one on the notes. -/
theorem callLeavesAdmins_of_event (h : FloorNoted p μ) {i : Nat} {ok : Bool} {op : AdminOp}
    {c : ApiCmd} (he : LeavesAdmins p (.step i ok)) (hc : nextCall p i = some (op, c)) :
    CallLeavesAdmins i op c ok p.shared μ := by
  intro q hcall x hremoves
  have haccepted : acceptedCall p (.step i ok) = some q := by
    simp only [acceptedCall, hc]
    exact hcall
  have hremoval : removal p (.step i ok) = some (x, q.closesAccount) := by
    simp [removal, haccepted, hremoves]
  obtain ⟨hcloses, hothers⟩ := he _ hremoval
  refine ⟨hcloses, ?_⟩
  intro j t hji hj
  obtain ⟨hlt, hpending⟩ := pendingAt_of_note h hj
  have hother := hothers j hlt hji
  rw [hpending] at hother
  exact hother

/--
In an interleaving of these requests in which `delete_account` never deletes the
last active administrator, and in which no write takes away the administrator that
another request relies on between its check and its write, an active administrator
always remains.
-/
theorem admin_floor (s : Sys) (hs : HasAdmin s.db.users) (es : List (PoolEvent AdminOp Unit))
    (hrun : Along (poolStep (requestSystem AdminOp.handler)) LeavesAdmins (requestIdle s) es) :
    Always (poolStep (requestSystem AdminOp.handler)) (fun p => HasAdmin p.shared.db.users)
      (requestIdle s) es := by
  refine always_of_along (fun p => ∃ μ, FloorNoted p μ) ?_ ?_ ?_ hrun
  · rintro p e ⟨μ, h⟩ he
    have hstep : ∃ μ', Noted (requestSystem AdminOp.handler) Floored Vouches CallLeavesAdmins
        (fun _ _ _ => True) none (poolStep (requestSystem AdminOp.handler) p e) μ' := by
      refine noted_step ?_ h.1 ?_ ?_ ?_
      · intro i op _
        exact adminOp_checks i op
      · rintro i ok op c rfl hc
        exact callLeavesAdmins_of_event h he hc
      · intro i op q _ _
        exact h.1.inv.note i fun t hnone => by cases hnone
      · intro g _
        exact ⟨h.1.inv.admin, fun j t hnone => by cases hnone⟩
    obtain ⟨μ', hμ'⟩ := hstep
    exact floorNoted_of_noted hμ'
  · rintro p ⟨μ, h⟩
    exact h.1.inv.admin
  · refine ⟨fun _ => none, noted_init ⟨hs, ?_⟩, fun _ _ => rfl⟩
    intro j t hnone
    cases hnone

/-- A host whose users are the administrator 1 and the user 2. -/
def sampleAdmins : Sys := Sys.off sampleDb

/-- The administrator makes the user a second administrator, who then deletes the account. -/
def sampleHandover : List (PoolEvent AdminOp Unit) :=
  .spawn (.setUserRole 1 2 .admin) :: List.replicate 3 (.step 0 true) ++
    .spawn (.deleteAccount 2 0) :: List.replicate 3 (.step 1 true)

theorem admin_floor_sample :
    Always (poolStep (requestSystem AdminOp.handler)) (fun p => HasAdmin p.shared.db.users)
      (requestIdle sampleAdmins) sampleHandover :=
  admin_floor sampleAdmins (by decide) sampleHandover (by decide)

/-- The only administrator deletes the account it is signed in with. -/
theorem last_admin_deletes_account :
    HasAdmin sampleAdmins.db.users ∧
      ¬Always (poolStep (requestSystem AdminOp.handler)) (fun p => HasAdmin p.shared.db.users)
        (requestIdle sampleAdmins)
        (.spawn (.deleteAccount 1 0) :: List.replicate 2 (.step 0 true)) := by
  refine ⟨by decide, ?_⟩
  intro h
  have hlast := h.last
  revert hlast
  decide

end Main

end Api
end ZeroVpn
