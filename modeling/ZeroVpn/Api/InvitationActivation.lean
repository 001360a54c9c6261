import ZeroVpn.Api.Invitations

/-!
# Who activates an invited account

The accounts leave `pending_verification` through the transaction of
`google_callback` only.  The invariant of the registry ties every row of
`invitations` to the history: the row describes the last token that was stored
for its user.  A request that has drawn a token holds it alone until it is
stored; a callback that has found an account by its email remembers both.
-/

namespace ZeroVpn

open Library

namespace Api
namespace Invitations

open Db (Uuid UserStatus)
open Sessions (GoogleInfo)

/-- The status of an account. -/
def Registry.statusOf (s : Registry) (id : Uuid) : Option UserStatus :=
  (Sessions.findById s.users id).map Sessions.Account.status

/-- The account leaves `pending_verification` for `active`. -/
def Activates (s s' : Registry) (id : Uuid) : Prop :=
  s.statusOf id = some .pendingVerification ∧ s'.statusOf id = some .active

/-- The last token that was stored for the user was presented since, has not expired, and was
neither revoked nor accepted. -/
def Redeemable (history : List Happening) (id : Uuid) (now : Int) : Prop :=
  ∃ token expiresAt later earlier,
    history = later ++ Happening.stored id token expiresAt :: earlier ∧
      (∀ t e, Happening.stored id t e ∉ later) ∧ .presented token ∈ later ∧
      .revoked id ∉ later ∧ .accepted id ∉ later ∧ now < expiresAt

/-- The event activates no account, or is the transaction of a callback for the email of the
account at a moment when its token could be redeemed, or is the change of a status by an
admin. -/
def ActivatesRightly (k : Tokens) (p : InvitePool) (e : PoolEvent InviteOp Unit) : Prop :=
  ∀ id, Activates p.shared (poolStep (inviteSystem k) p e).shared id →
    ∃ i, e = .step i true ∧
      ((∃ info now, nextCall p i = some (.googleCallback info now, .accept id info.sub now) ∧
          (∃ u ∈ p.shared.users, u.id = id ∧ u.email = info.email) ∧
          Redeemable p.shared.history id now) ∨
        ∃ adminId,
          nextCall p i = some (.setUserStatus adminId id .active, .adminSetStatus id .active))

/-- The last token that was stored for a user. -/
def lastToken (id : Uuid) : List Happening → Option String
  | [] => none
  | .stored userId token _ :: h => if userId = id then some token else lastToken id h
  | .presented _ :: h => lastToken id h
  | .revoked _ :: h => lastToken id h
  | .accepted _ :: h => lastToken id h

/-- The tokens that activated an account, once for each activation. -/
def redeemed : List Happening → List String
  | [] => []
  | .accepted id :: h => (lastToken id h).toList ++ redeemed h
  | .stored .. :: h => redeemed h
  | .presented _ :: h => redeemed h
  | .revoked _ :: h => redeemed h

/-- The tokens that were stored. -/
def storedTokens : List Happening → List String
  | [] => []
  | .stored _ token _ :: h => token :: storedTokens h
  | .presented _ :: h => storedTokens h
  | .revoked _ :: h => storedTokens h
  | .accepted _ :: h => storedTokens h

section History

variable {h : List Happening} {id : Uuid} {token : String}

theorem mem_storedTokens : token ∈ storedTokens h ↔ ∃ id e, Happening.stored id token e ∈ h := by
  induction h with
  | nil =>
      simp [storedTokens]
  | cons x h ih =>
      cases x with
      | stored userId t expiresAt =>
          simp only [storedTokens, List.mem_cons, ih, Happening.stored.injEq]
          constructor
          · rintro (rfl | ⟨id, e, he⟩)
            · exact ⟨userId, expiresAt, Or.inl ⟨rfl, rfl, rfl⟩⟩
            · exact ⟨id, e, Or.inr he⟩
          · rintro ⟨id, e, ⟨-, rfl, -⟩ | he⟩
            · exact Or.inl rfl
            · exact Or.inr ⟨id, e, he⟩
      | _ =>
          simp [storedTokens, ih]

theorem lastToken_mem (hlast : lastToken id h = some token) :
    ∃ e, Happening.stored id token e ∈ h := by
  induction h with
  | nil =>
      cases hlast
  | cons x h ih =>
      cases x with
      | stored userId t expiresAt =>
          simp only [lastToken] at hlast
          split at hlast
          · rename_i hid
            cases hlast
            exact ⟨expiresAt, by simp [hid]⟩
          · obtain ⟨e, he⟩ := ih hlast
            exact ⟨e, List.mem_cons_of_mem _ he⟩
      | _ =>
          obtain ⟨e, he⟩ := ih hlast
          exact ⟨e, List.mem_cons_of_mem _ he⟩

/-- A token activated the account for which it was stored. -/
theorem redeemed_mem (hmem : token ∈ redeemed h) :
    ∃ id e, Happening.accepted id ∈ h ∧ Happening.stored id token e ∈ h := by
  induction h with
  | nil =>
      cases hmem
  | cons x h ih =>
      have hlater : token ∈ redeemed h →
          ∃ id e, Happening.accepted id ∈ x :: h ∧ Happening.stored id token e ∈ x :: h := by
        intro hmem
        obtain ⟨id, e, hacc, hst⟩ := ih hmem
        exact ⟨id, e, List.mem_cons_of_mem _ hacc, List.mem_cons_of_mem _ hst⟩
      cases x with
      | accepted id =>
          simp only [redeemed, List.mem_append, Option.mem_toList] at hmem
          rcases hmem with hlast | hmem
          · obtain ⟨e, he⟩ := lastToken_mem hlast
            exact ⟨id, e, List.mem_cons_self, List.mem_cons_of_mem _ he⟩
          · exact hlater hmem
      | _ =>
          exact hlater hmem

/-- A token was stored for one user. -/
theorem stored_unique (hnodup : (storedTokens h).Nodup) {id id' : Uuid} {e e' : Int}
    (hst : Happening.stored id token e ∈ h) (hst' : Happening.stored id' token e' ∈ h) :
    id = id' := by
  induction h with
  | nil =>
      cases hst
  | cons x h ih =>
      cases x with
      | stored userId t expiresAt =>
          simp only [storedTokens, List.nodup_cons, mem_storedTokens] at hnodup
          rcases List.mem_cons.mp hst with hx | hrest
          · rcases List.mem_cons.mp hst' with hx' | hrest'
            · cases hx
              cases hx'
              rfl
            · cases hx
              exact absurd ⟨id', e', hrest'⟩ hnodup.1
          · rcases List.mem_cons.mp hst' with hx' | hrest'
            · cases hx'
              exact absurd ⟨id, e, hrest⟩ hnodup.1
            · exact ih hnodup.2 hrest hrest'
      | _ =>
          simp only [storedTokens, List.mem_cons, reduceCtorEq, false_or] at hnodup hst hst'
          exact ih hnodup hst hst'

/-- An account that was not activated before adds a token that was not redeemed. -/
theorem redeemed_accepted (hstored : (storedTokens h).Nodup) (hredeemed : (redeemed h).Nodup)
    (hnew : Happening.accepted id ∉ h) : (redeemed (.accepted id :: h)).Nodup := by
  simp only [redeemed]
  cases hlast : lastToken id h with
  | none =>
      exact hredeemed
  | some token =>
      refine List.nodup_cons.mpr ⟨?_, hredeemed⟩
      intro hmem
      obtain ⟨id', e', hacc, hst'⟩ := redeemed_mem hmem
      obtain ⟨e, hst⟩ := lastToken_mem hlast
      rw [stored_unique hstored hst hst'] at hnew
      exact hnew hacc

end History

/-- The row says about the last token of its user what the history says. -/
def Backed (k : Tokens) (h : List Happening) (r : Invitation) : Prop :=
  ∃ token later earlier,
    h = later ++ Happening.stored r.userId token r.expiresAt :: earlier ∧
      (∀ t e, Happening.stored r.userId t e ∉ later) ∧ r.tokenHash = k.hash token ∧
      (r.verifiedAt.isSome = true → .presented token ∈ later) ∧
      (r.revokedAt = none → .revoked r.userId ∉ later) ∧
      (r.acceptedAt = none → .accepted r.userId ∉ later)

section Backed

variable {k : Tokens} {h : List Happening} {r : Invitation}

theorem backed_issued (id : Uuid) (token : String) (expiresAt : Int) :
    Backed k (.stored id token expiresAt :: h) (Registry.issued k id token expiresAt) :=
  ⟨token, [], h, rfl, by simp, rfl, by simp [Registry.issued], by simp, by simp⟩

/-- One more event that is not about the row. -/
theorem Backed.cons (hr : Backed k h r) {x : Happening}
    (hstored : ∀ t e, x ≠ .stored r.userId t e) (hrevoked : x ≠ .revoked r.userId)
    (haccepted : x ≠ .accepted r.userId) : Backed k (x :: h) r := by
  obtain ⟨token, later, earlier, rfl, hlast, hhash, hver, hrev, hacc⟩ := hr
  refine ⟨token, x :: later, earlier, rfl, ?_, hhash, ?_, ?_, ?_⟩
  · intro t e hmem
    rcases List.mem_cons.mp hmem with hx | hmem
    · exact hstored t e hx.symm
    · exact hlast t e hmem
  · intro hv
    exact List.mem_cons_of_mem _ (hver hv)
  · intro hnone hmem
    rcases List.mem_cons.mp hmem with hx | hmem
    · exact hrevoked hx.symm
    · exact hrev hnone hmem
  · intro hnone hmem
    rcases List.mem_cons.mp hmem with hx | hmem
    · exact haccepted hx.symm
    · exact hacc hnone hmem

/-- The token of the row is presented. -/
theorem Backed.verified (hhash : Function.Injective k.hash) (hr : Backed k h r) {token : String}
    (htoken : r.tokenHash = k.hash token) (at_ : Int) :
    Backed k (.presented token :: h) { r with verifiedAt := some at_ } := by
  obtain ⟨stored, later, earlier, rfl, hlast, hst, hver, hrev, hacc⟩ := hr
  have hsame : token = stored := hhash (htoken.symm.trans hst)
  subst hsame
  refine ⟨token, .presented token :: later, earlier, rfl, ?_, hst, ?_, ?_, ?_⟩
  · simpa using hlast
  · simp
  · simpa using hrev
  · simpa using hacc

theorem Backed.revoked (hr : Backed k h r) (at_ : Int) :
    Backed k (.revoked r.userId :: h) { r with revokedAt := some at_ } := by
  obtain ⟨token, later, earlier, rfl, hlast, hst, hver, hrev, hacc⟩ := hr
  refine ⟨token, .revoked r.userId :: later, earlier, rfl, ?_, hst, ?_, ?_, ?_⟩
  · simpa using hlast
  · simpa using hver
  · simp
  · simpa using hacc

theorem Backed.accepted (hr : Backed k h r) (at_ : Int) :
    Backed k (.accepted r.userId :: h) { r with acceptedAt := some at_ } := by
  obtain ⟨token, later, earlier, rfl, hlast, hst, hver, hrev, hacc⟩ := hr
  refine ⟨token, .accepted r.userId :: later, earlier, rfl, ?_, hst, ?_, ?_, ?_⟩
  · simpa using hlast
  · simpa using hver
  · simpa using hrev
  · simp

/-- A row that can be consumed has a token that can be redeemed. -/
theorem Backed.redeemable (hr : Backed k h r) {id : Uuid} {now : Int}
    (hconsumable : Registry.consumable id now r = true) : Redeemable h id now := by
  simp only [Registry.consumable, Invitation.pending, Bool.and_eq_true, beq_iff_eq,
    decide_eq_true_eq, Option.isNone_iff_eq_none] at hconsumable
  obtain ⟨⟨⟨rfl, hv⟩, hnow⟩, haccepted, hrevoked⟩ := hconsumable
  obtain ⟨token, later, earlier, hh, hlast, -, hver, hrev, hacc⟩ := hr
  exact ⟨token, r.expiresAt, later, earlier, hh, hlast, hver hv, hrev hrevoked, hacc haccepted,
    hnow⟩

end Backed

/-- What a request remembers. -/
inductive InviteNote where
  | idle
  /-- It has found an account by its email. -/
  | found (id : Uuid) (email : String)
  /-- It has drawn a token. -/
  | holding (token : String)

def NoteHolds (k : Tokens) (s : Registry) : InviteNote → Prop
  | .idle => True
  | .found id email => ∃ u ∈ s.users, u.id = id ∧ u.email = email
  | .holding token =>
      (∃ n < s.drawn, token = k.fresh n) ∧ token ∉ storedTokens s.history

/-- The rows and the history belong together. -/
structure Ledger (k : Tokens) (s : Registry) : Prop where
  accounts : (s.users.map Sessions.Account.id).Nodup
  keys : (s.invitations.map Invitation.userId).Nodup
  rows : ∀ r ∈ s.invitations, Backed k s.history r
  drawn : ∀ token ∈ storedTokens s.history, ∃ n < s.drawn, token = k.fresh n
  stored : (storedTokens s.history).Nodup
  activated : ∀ id, Happening.accepted id ∈ s.history →
    (∃ u ∈ s.users, u.id = id) ∧ ∀ u ∈ s.users, u.id = id → u.status ≠ .pendingVerification
  redeemed : (redeemed s.history).Nodup

/-- The registry, and what the requests remember. -/
structure Book (k : Tokens) (s : Registry) (μ : Nat → InviteNote) : Prop where
  ledger : Ledger k s
  notes : ∀ i, NoteHolds k s (μ i)
  apart : ∀ i j token, μ i = .holding token → μ j = .holding token → i = j

/-- Accounts keep their keys and emails, and no account goes back to `pending_verification`. -/
structure UsersGrow (users users' : List Sessions.Account) : Prop where
  keys : (users.map Sessions.Account.id).Nodup → (users'.map Sessions.Account.id).Nodup
  kept : ∀ u ∈ users, ∃ u' ∈ users', u'.id = u.id ∧ u'.email = u.email
  pending : ∀ u' ∈ users', u'.status = .pendingVerification →
    (∃ u ∈ users, u.id = u'.id ∧ u.status = .pendingVerification) ∨ ∀ u ∈ users, u.id ≠ u'.id

theorem UsersGrow.refl (users : List Sessions.Account) : UsersGrow users users where
  keys h := h
  kept u hu := ⟨u, hu, rfl, rfl⟩
  pending u hu hpending := Or.inl ⟨u, hu, rfl, hpending⟩

theorem usersGrow_updateWhere {users : List Sessions.Account} {p : Sessions.Account → Bool} {f : Sessions.Account → Sessions.Account}
    (hid : ∀ u, (f u).id = u.id) (hemail : ∀ u, (f u).email = u.email)
    (hstatus : ∀ u, (f u).status = .pendingVerification → u.status = .pendingVerification) :
    UsersGrow users (updateWhere p f users) where
  keys h := by
    rw [map_updateWhere hid]
    exact h
  kept := by
    intro u hu
    cases hp : p u with
    | true =>
        exact ⟨f u, mem_updateWhere_of_pos hu hp, hid u, hemail u⟩
    | false =>
        exact ⟨u, mem_updateWhere_of_not hu hp, rfl, rfl⟩
  pending := by
    intro u' hu' hpending
    obtain ⟨u, hu, rfl⟩ := mem_updateWhere.mp hu'
    cases hp : p u with
    | true =>
        simp only [hp, if_true] at hpending ⊢
        exact Or.inl ⟨u, hu, (hid u).symm, hstatus u hpending⟩
    | false =>
        simp only [hp] at hpending ⊢
        exact Or.inl ⟨u, hu, rfl, hpending⟩

section Steps

variable {k : Tokens} {s s' : Registry} {μ : Nat → InviteNote} {i : Nat} {m : InviteNote}

/-- Notes that hold go on to hold while the accounts grow and nothing is stored. -/
theorem noteHolds_of_grow (husers : UsersGrow s.users s'.users) (hdrawn : s.drawn ≤ s'.drawn)
    (hstored : storedTokens s'.history = storedTokens s.history) (h : NoteHolds k s m) :
    NoteHolds k s' m := by
  cases m with
  | idle =>
      trivial
  | found id email =>
      obtain ⟨u, hu, rfl, rfl⟩ := h
      exact husers.kept u hu
  | holding token =>
      obtain ⟨⟨n, hn, htoken⟩, hfree⟩ := h
      refine ⟨⟨n, by omega, htoken⟩, ?_⟩
      rw [hstored]
      exact hfree

/-- A step that draws and stores nothing. -/
theorem Book.quiet (h : Book k s μ) (hledger : Ledger k s')
    (husers : UsersGrow s.users s'.users) (hdrawn : s'.drawn = s.drawn)
    (hstored : storedTokens s'.history = storedTokens s.history) : Book k s' μ where
  ledger := hledger
  notes j := noteHolds_of_grow husers hdrawn.ge hstored (h.notes j)
  apart := h.apart

/-- A step that changes accounts only. -/
theorem Book.users (h : Book k s μ) {users : List Sessions.Account} (hgrow : UsersGrow s.users users) :
    Book k { s with users := users } μ := by
  refine h.quiet ?_ hgrow rfl rfl
  refine ⟨hgrow.keys h.ledger.accounts, h.ledger.keys, h.ledger.rows, h.ledger.drawn,
    h.ledger.stored, ?_, h.ledger.redeemed⟩
  intro id hacc
  obtain ⟨⟨u, hu, huid⟩, hsettled⟩ := h.ledger.activated id hacc
  refine ⟨?_, ?_⟩
  · obtain ⟨u', hu', hid, -⟩ := hgrow.kept u hu
    exact ⟨u', hu', hid.trans huid⟩
  · intro u' hu' hid hpending
    rcases hgrow.pending u' hu' hpending with ⟨v, hv, hvid, hvpending⟩ | hnone
    · exact hsettled v hv (hvid.trans hid) hvpending
    · exact hnone u hu (huid.trans hid.symm)

/-- Writing a note. -/
theorem Book.note (h : Book k s μ) (hm : NoteHolds k s m) (hnot : ∀ token, m ≠ .holding token) :
    Book k s (Function.update μ i m) where
  ledger := h.ledger
  notes := by
    intro j
    by_cases hji : j = i
    · rw [hji, Function.update_self]
      exact hm
    · rw [Function.update_of_ne hji]
      exact h.notes j
  apart := by
    intro j j' token hj hj'
    have hsame : ∀ x, Function.update μ i m x = .holding token → μ x = .holding token := by
      intro x hx
      by_cases hxi : x = i
      · rw [hxi, Function.update_self] at hx
        exact absurd hx (hnot token)
      · rwa [Function.update_of_ne hxi] at hx
    exact h.apart j j' token (hsame j hj) (hsame j' hj')

theorem Book.idle (h : Book k s μ) : Book k s (Function.update μ i .idle) :=
  h.note trivial fun _ hm => by cases hm

/-- A token is drawn. -/
theorem Book.draw (hfresh : Function.Injective k.fresh) (h : Book k s μ) :
    Book k { s with drawn := s.drawn + 1 } (Function.update μ i (.holding (k.fresh s.drawn))) := by
  have hnew : ∀ n < s.drawn, k.fresh s.drawn ≠ k.fresh n := by
    intro n hn hsame
    have := hfresh hsame
    omega
  have hothers : ∀ j, j ≠ i → μ j ≠ .holding (k.fresh s.drawn) := by
    intro j _ hj
    have hnote := h.notes j
    rw [hj] at hnote
    obtain ⟨⟨n, hn, hsame⟩, -⟩ := hnote
    exact hnew n hn hsame
  refine ⟨⟨h.ledger.accounts, h.ledger.keys, h.ledger.rows, ?_, h.ledger.stored,
    h.ledger.activated, h.ledger.redeemed⟩, ?_, ?_⟩
  · intro token htoken
    obtain ⟨n, hn, rfl⟩ := h.ledger.drawn token htoken
    exact ⟨n, Nat.lt_succ_of_lt hn, rfl⟩
  · intro j
    by_cases hji : j = i
    · rw [hji, Function.update_self]
      refine ⟨⟨s.drawn, Nat.lt_succ_self _, rfl⟩, ?_⟩
      intro hmem
      obtain ⟨n, hn, hsame⟩ := h.ledger.drawn _ hmem
      exact hnew n hn hsame
    · rw [Function.update_of_ne hji]
      exact noteHolds_of_grow (s := s) (UsersGrow.refl _) (Nat.le_succ _) rfl (h.notes j)
  · intro j j' token hj hj'
    by_cases hji : j = i
    · by_cases hji' : j' = i
      · rw [hji, hji']
      · rw [hji, Function.update_self] at hj
        rw [Function.update_of_ne hji', ← hj] at hj'
        exact absurd hj' (hothers j' hji')
    · by_cases hji' : j' = i
      · rw [hji', Function.update_self] at hj'
        rw [Function.update_of_ne hji, ← hj'] at hj
        exact absurd hj (hothers j hji)
      · rw [Function.update_of_ne hji] at hj
        rw [Function.update_of_ne hji'] at hj'
        exact h.apart j j' token hj hj'

/-- The token of a request is stored. -/
theorem Book.store (h : Book k s μ) {id : Uuid} {token : String} {expiresAt : Int}
    (hi : μ i = .holding token) {rows : List Invitation}
    (hkeys : (rows.map Invitation.userId).Nodup)
    (hrows : ∀ r ∈ rows, Backed k (.stored id token expiresAt :: s.history) r) :
    Book k { s with
      invitations := rows
      history := .stored id token expiresAt :: s.history } (Function.update μ i .idle) := by
  have hnote := h.notes i
  rw [hi] at hnote
  obtain ⟨hdrawn, hfree⟩ := hnote
  refine ⟨⟨h.ledger.accounts, hkeys, hrows, ?_, ?_, ?_, h.ledger.redeemed⟩, ?_, ?_⟩
  · intro t ht
    rcases List.mem_cons.mp ht with rfl | ht
    · exact hdrawn
    · exact h.ledger.drawn t ht
  · exact List.nodup_cons.mpr ⟨hfree, h.ledger.stored⟩
  · intro id' hacc
    rcases List.mem_cons.mp hacc with hx | hacc
    · cases hx
    · exact h.ledger.activated id' hacc
  · intro j
    by_cases hji : j = i
    · rw [hji, Function.update_self]
      trivial
    · rw [Function.update_of_ne hji]
      have hj := h.notes j
      cases hm : μ j with
      | idle =>
          trivial
      | found id' email =>
          rw [hm] at hj
          exact hj
      | holding t =>
          rw [hm] at hj
          refine ⟨hj.1, ?_⟩
          intro hmem
          rcases List.mem_cons.mp hmem with rfl | hmem
          · exact hji (h.apart j i t hm hi)
          · exact hj.2 hmem
  · exact (h.idle (i := i)).apart

/-- Something is presented or revoked. -/
theorem Book.mark (h : Book k s μ) {x : Happening} {rows : List Invitation}
    (hkeys : (rows.map Invitation.userId).Nodup) (hrows : ∀ r ∈ rows, Backed k (x :: s.history) r)
    (hx : (∃ token, x = .presented token) ∨ ∃ id, x = .revoked id) :
    Book k { s with invitations := rows, history := x :: s.history } μ := by
  have hstored : storedTokens (x :: s.history) = storedTokens s.history := by
    rcases hx with ⟨token, rfl⟩ | ⟨id, rfl⟩ <;> rfl
  have hredeemed : Invitations.redeemed (x :: s.history) = Invitations.redeemed s.history := by
    rcases hx with ⟨token, rfl⟩ | ⟨id, rfl⟩ <;> rfl
  refine h.quiet ⟨h.ledger.accounts, hkeys, hrows, ?_, ?_, ?_, ?_⟩ (UsersGrow.refl _) rfl hstored
  · simp only [hstored]
    exact h.ledger.drawn
  · simp only [hstored]
    exact h.ledger.stored
  · intro id hacc
    rcases List.mem_cons.mp hacc with rfl | hacc
    · rcases hx with ⟨token, hx⟩ | ⟨id, hx⟩ <;> cases hx
    · exact h.ledger.activated id hacc
  · simp only [hredeemed]
    exact h.ledger.redeemed

/-- Under the key of the table the rows of a user are all affected or none is. -/
theorem ne_of_unaffected {rows : List Invitation} (hkeys : (rows.map Invitation.userId).Nodup)
    {p : Invitation → Bool} {id : Uuid} (hp : ∀ r, p r = true → r.userId = id)
    (haffected : rowsAffected p rows ≠ 0) {r : Invitation} (hr : r ∈ rows) (hnot : p r = false) :
    r.userId ≠ id := by
  intro hid
  obtain ⟨r₀, hr₀⟩ := List.exists_mem_of_length_pos (Nat.pos_of_ne_zero haffected)
  obtain ⟨hmem, hpr₀⟩ := List.mem_filter.mp hr₀
  have hsame : r = r₀ := row_unique hkeys hr hmem (hid.trans (hp r₀ hpr₀).symm)
  rw [hsame, hpr₀] at hnot
  cases hnot

theorem keys_updateWhere {rows : List Invitation} (hkeys : (rows.map Invitation.userId).Nodup)
    {p : Invitation → Bool} {f : Invitation → Invitation}
    (hf : ∀ r, p r = true → (f r).userId = r.userId) :
    ((updateWhere p f rows).map Invitation.userId).Nodup := by
  rw [map_updateWhere_mem fun r _ hr => hf r hr]
  exact hkeys

theorem backed_updateWhere {h : List Happening} {p : Invitation → Bool}
    {f : Invitation → Invitation} {rows : List Invitation}
    (hpos : ∀ r ∈ rows, p r = true → Backed k h (f r))
    (hneg : ∀ r ∈ rows, p r = false → Backed k h r) :
    ∀ r ∈ updateWhere p f rows, Backed k h r := by
  intro r' hr'
  obtain ⟨r, hr, rfl⟩ := mem_updateWhere.mp hr'
  cases hp : p r with
  | true =>
      exact hpos r hr hp
  | false =>
      exact hneg r hr hp

theorem Book.upsert (h : Book k s μ) {id : Uuid} {token : String} {expiresAt : Int}
    (hi : μ i = .holding token) :
    Book k (s.upsert k id token expiresAt).1 (Function.update μ i .idle) := by
  unfold Registry.upsert
  split
  · exact h.idle
  · have hother : ∀ r ∈ s.invitations, r.userId ≠ id →
        Backed k (.stored id token expiresAt :: s.history) r := by
      intro r hr hne
      refine (h.ledger.rows r hr).cons ?_ (by simp) (by simp)
      intro t e hx
      cases hx
      exact hne rfl
    unfold upsertRow
    split
    · refine h.store hi (keys_updateWhere h.ledger.keys fun r hr => (eq_of_beq hr).symm)
        (backed_updateWhere (fun _ _ _ => backed_issued id token expiresAt) ?_)
      intro r hr hne
      exact hother r hr (ne_of_beq_false hne)
    · rename_i hnone
      have hnew : ∀ r ∈ s.invitations, r.userId ≠ id := by
        simpa using hnone
      refine h.store hi ?_ ?_
      · rw [List.map_append, List.nodup_append]
        refine ⟨h.ledger.keys, List.nodup_singleton _, ?_⟩
        intro a ha b hb
        obtain ⟨r, hr, rfl⟩ := List.mem_map.mp ha
        rw [List.mem_singleton.mp hb]
        exact hnew r hr
      · intro r hr
        rcases List.mem_append.mp hr with hr | hr
        · exact hother r hr (hnew r hr)
        · rw [List.mem_singleton.mp hr]
          exact backed_issued id token expiresAt

theorem Book.replaceLink (h : Book k s μ) {id : Uuid} {token : String} {expiresAt : Int}
    (hi : μ i = .holding token) :
    Book k (s.replaceLink k id token expiresAt).1 (Function.update μ i .idle) := by
  have howner : ∀ r : Invitation, (r.userId == id && r.pending) = true → r.userId = id := by
    intro r hr
    exact eq_of_beq (Bool.and_eq_true_iff.mp hr).1
  unfold Registry.replaceLink
  dsimp only
  split
  · exact h.idle
  · split
    · exact h.idle
    · rename_i haffected
      refine h.store hi (keys_updateWhere h.ledger.keys fun r hr => (howner r hr).symm)
        (backed_updateWhere (fun _ _ _ => backed_issued id token expiresAt) ?_)
      intro r hr hnot
      have hne := ne_of_unaffected h.ledger.keys howner haffected hr hnot
      refine (h.ledger.rows r hr).cons ?_ (by simp) (by simp)
      intro t e hx
      cases hx
      exact hne rfl

theorem Book.verify (hhash : Function.Injective k.hash) (h : Book k s μ) (token : String)
    (now : Int) : Book k (s.verify k token now).1 μ := by
  refine h.mark (keys_updateWhere h.ledger.keys fun _ _ => rfl) (backed_updateWhere ?_ ?_)
    (Or.inl ⟨token, rfl⟩)
  · intro r hr hp
    simp only [Bool.and_eq_true, beq_iff_eq] at hp
    exact (h.ledger.rows r hr).verified hhash hp.1.1 _
  · intro r hr _
    exact (h.ledger.rows r hr).cons (by simp) (by simp) (by simp)

theorem Book.revoke (h : Book k s μ) (id : Uuid) (now : Int) : Book k (s.revoke id now).1 μ := by
  have howner : ∀ r : Invitation, (r.userId == id && r.pending) = true → r.userId = id := by
    intro r hr
    exact eq_of_beq (Bool.and_eq_true_iff.mp hr).1
  unfold Registry.revoke
  dsimp only
  split
  · exact h
  · rename_i haffected
    refine h.mark (keys_updateWhere h.ledger.keys fun _ _ => rfl) (backed_updateWhere ?_ ?_)
      (Or.inr ⟨id, rfl⟩)
    · intro r hr hp
      rw [← howner r hp]
      exact (h.ledger.rows r hr).revoked now
    · intro r hr hnot
      have hne := ne_of_unaffected h.ledger.keys howner haffected hr hnot
      refine (h.ledger.rows r hr).cons (by simp) ?_ (by simp)
      intro hx
      cases hx
      exact hne rfl

/-- The row of the account that the transaction activates. -/
theorem exists_activatable {users : List Sessions.Account} {id : Uuid}
    (h : rowsAffected (Registry.activatable id) users = 1) :
    ∃ u ∈ users, Registry.activatable id u = true ∧ u.id = id ∧
      u.status = .pendingVerification := by
  have hpos : 0 < (users.filter (Registry.activatable id)).length := by
    unfold rowsAffected at h
    omega
  obtain ⟨u, hu⟩ := List.exists_mem_of_length_pos hpos
  obtain ⟨hmem, hu⟩ := List.mem_filter.mp hu
  refine ⟨u, hmem, hu, ?_⟩
  simp only [Registry.activatable, Bool.and_eq_true, beq_iff_eq] at hu
  exact hu.1

/-- The transaction consumes one invitation and settles one account. -/
theorem Book.accept (h : Book k s μ) (id : Uuid) (googleId : String) (now : Int) :
    Book k (s.accept id googleId now).1 μ := by
  have howner : ∀ r : Invitation, Registry.consumable id now r = true → r.userId = id := by
    intro r hr
    simp only [Registry.consumable, Bool.and_eq_true, beq_iff_eq] at hr
    exact hr.1.1.1
  unfold Registry.accept
  split
  · exact h
  rename_i haffected
  split
  · exact h
  rename_i hone
  split
  · exact h
  obtain ⟨u, hu, hactivatable, huid, hpending⟩ := exists_activatable (not_ne_iff.mp hone)
  have hnew : Happening.accepted id ∉ s.history := by
    intro hacc
    exact (h.ledger.activated id hacc).2 u hu huid hpending
  have hgrow : UsersGrow s.users (updateWhere (Registry.activatable id)
      (fun u => { u with status := .active, googleId := some googleId }) s.users) :=
    usersGrow_updateWhere (fun _ => rfl) (fun _ => rfl) fun _ hstatus => by cases hstatus
  have hbook := h.users hgrow
  refine h.quiet ⟨hbook.ledger.accounts, keys_updateWhere h.ledger.keys fun _ _ => rfl,
    backed_updateWhere ?_ ?_, h.ledger.drawn, h.ledger.stored, ?_, ?_⟩ hgrow rfl rfl
  · intro r hr hp
    rw [← howner r hp]
    exact (h.ledger.rows r hr).accepted now
  · intro r hr hnot
    have hne := ne_of_unaffected h.ledger.keys howner haffected hr hnot
    refine (h.ledger.rows r hr).cons (by simp) (by simp) ?_
    intro hx
    cases hx
    exact hne rfl
  · intro id' hacc
    rcases List.mem_cons.mp hacc with hx | hacc
    · cases hx
      refine ⟨⟨_, mem_updateWhere_of_pos hu hactivatable, huid⟩, ?_⟩
      intro v' hv' hvid
      obtain ⟨v, hv, rfl⟩ := mem_updateWhere.mp hv'
      -- the key leaves no other row of the account
      have hsame : v = u := by
        refine row_unique h.ledger.accounts hv hu ?_
        rw [huid, ← hvid]
        split <;> rfl
      rw [hsame, if_pos hactivatable]
      simp
    · exact hbook.ledger.activated id' hacc
  · exact redeemed_accepted h.ledger.stored h.ledger.redeemed hnew

theorem Book.createUser (h : Book k s μ) (id : Uuid) (email : String) (role : Db.UserRole) :
    Book k (s.createUser id email role).1 μ := by
  unfold Registry.createUser
  split
  · exact h
  rename_i hnone
  have hnew : ∀ u ∈ s.users, u.id ≠ id := by
    intro u hu hid
    exact hnone (List.any_eq_true.mpr ⟨u, hu, by simp [hid]⟩)
  refine h.users ⟨?_, ?_, ?_⟩
  · intro hkeys
    rw [List.map_append, List.nodup_append]
    refine ⟨hkeys, List.nodup_singleton _, ?_⟩
    intro a ha b hb
    obtain ⟨u, hu, rfl⟩ := List.mem_map.mp ha
    rw [List.mem_singleton.mp hb]
    exact hnew u hu
  · intro u hu
    exact ⟨u, List.mem_append_left _ hu, rfl, rfl⟩
  · intro u' hu' hpending
    rcases List.mem_append.mp hu' with hu' | hu'
    · exact Or.inl ⟨u', hu', rfl, hpending⟩
    · rw [List.mem_singleton.mp hu']
      exact Or.inr hnew

theorem Book.linkGoogle (h : Book k s μ) (id : Uuid) (googleId : String) :
    Book k (s.linkGoogle id googleId).1 μ := by
  unfold Registry.linkGoogle
  dsimp only
  split
  · exact h
  · exact h.users (usersGrow_updateWhere (fun _ => rfl) (fun _ => rfl) fun _ hstatus => hstatus)

/-- The calls that keep the book whatever the requests remember. -/
def Harmless : InviteCmd → Prop
  | .freshToken | .upsert .. | .replaceLink .. | .accept .. | .adminSetStatus .. => False
  | _ => True

theorem Book.harmless (hhash : Function.Injective k.hash) (h : Book k s μ) {c : InviteCmd}
    (hc : Harmless c) (ok : Bool) : Book k (c.sem k ok s).1 μ := by
  cases ok with
  | false =>
      exact h
  | true =>
      cases c with
      | createUser id email role =>
          exact h.createUser id email role
      | updateRole id role =>
          exact h.users (usersGrow_updateWhere (fun _ => rfl) (fun _ => rfl)
            fun _ hstatus => hstatus)
      | linkGoogle id googleId =>
          exact h.linkGoogle id googleId
      | verify token now =>
          exact h.verify hhash token now
      | revoke id now =>
          exact h.revoke id now
      | freshToken | upsert | replaceLink | accept | adminSetStatus =>
          exact hc.elim
      | _ =>
          exact h

end Steps

/-- Who makes the calls that change a status. -/
def Obliged (op : InviteOp) (c : InviteCmd) (s : Registry) : Prop :=
  match c with
  | .accept id googleId now =>
      ∃ info, op = .googleCallback info now ∧ googleId = info.sub ∧
        ∃ u ∈ s.users, u.id = id ∧ u.email = info.email
  | .adminSetStatus id status => ∃ adminId, op = .setUserStatus adminId id status
  | _ => True

/-- A request with note `m` may run `p`, and ends with `Q`. -/
abbrev Keeps (k : Tokens) {α : Type} (i : Nat) (op : InviteOp)
    (Q : Except InvitationError α → InviteNote → Prop) (p : InviteHandler α) (m : InviteNote) :
    Prop :=
  SafeThen (inviteSystem k) (Book k) Obliged (fun _ _ _ => True) i op Q p.run m

section Requests

open Attempt

theorem issues_query {c : InviteCmd} (hc : Harmless c) : Issues Harmless (query c) :=
  issues_lift hc

theorem issues_okOr {α : Type} (o : Option α) (e : InvitationError) :
    Issues Harmless (okOr o e) := by
  cases o with
  | none =>
      exact issues_throw e
  | some a =>
      exact issues_pure a

theorem issues_failIf (c : Bool) (e : InvitationError) : Issues Harmless (failIf c e) := by
  cases c with
  | false =>
      exact issues_pure ()
  | true =>
      exact issues_throw e

theorem issues_requireAdmin (adminId : Uuid) : Issues Harmless (requireAdmin adminId) := by
  unfold requireAdmin
  refine issues_bind (issues_query trivial) fun found => ?_
  refine issues_bind (issues_okOr _ _) fun admin => ?_
  exact issues_bind (issues_failIf _ _) fun _ => issues_failIf _ _

theorem issues_pendingUser (id : Uuid) : Issues Harmless (pendingUser id) := by
  unfold pendingUser
  refine issues_bind (issues_query trivial) fun found => ?_
  refine issues_bind (issues_okOr _ _) fun user => ?_
  exact issues_bind (issues_failIf _ _) fun _ => issues_pure user

/-- What holds at the end of a request that goes on: nothing is remembered. -/
def Settled {α : Type} (r : Except InvitationError α) (m : InviteNote) : Prop :=
  match r with
  | .ok _ => m = .idle
  | .error _ => True

variable {k : Tokens} {i : Nat} {op : InviteOp} {m : InviteNote} {α β : Type}
variable {Q : Except InvitationError β → InviteNote → Prop}
variable (hhash : Function.Injective k.hash) (hfresh : Function.Injective k.fresh)

include hhash in
theorem harmless_keeps {p : InviteHandler α} (hp : Issues Harmless p) :
    Keeps k i op (fun _ m' => m' = m) p m := by
  refine safeThen_of_calls ?_ ?_ hp fun _ => rfl
  · intro c s μ hc _
    cases c <;> trivial
  · intro c s μ ok hc hI _
    exact hI.harmless hhash hc ok

include hhash in
/-- A program starts with harmless calls. -/
theorem harmless_bind {p : InviteHandler α} {f : α → InviteHandler β} (hp : Issues Harmless p)
    (he : ∀ e m', Q (.error e) m') (hf : ∀ a, Keeps k i op Q (f a) m) :
    Keeps k i op Q (p >>= f) m := by
  refine (harmless_keeps hhash hp).attempt_bind ?_ fun e m' _ => he e m'
  rintro a _ rfl
  exact hf a

include hhash in
/-- A program of harmless calls. -/
theorem harmless_settled {p : InviteHandler α} (hp : Issues Harmless p) :
    Keeps k i op Settled p .idle := by
  refine (harmless_keeps hhash hp).mono ?_
  rintro (e | a) _ rfl
  · trivial
  · rfl

/-- A program goes on after it has settled. -/
theorem settled_bind {p : InviteHandler α} {f : α → InviteHandler β}
    (hp : Keeps k i op Settled p m) (hf : ∀ a, Keeps k i op Settled (f a) .idle) :
    Keeps k i op Settled (p >>= f) m := by
  refine hp.attempt_bind ?_ fun _ _ _ => trivial
  rintro a _ rfl
  exact hf a

include hfresh in
/-- The drawn token is held by the request. -/
theorem freshToken_bind {f : String → InviteHandler β} (he : ∀ e m', Q (.error e) m')
    (hf : ∀ token, Keeps k i op Q (f token) (.holding token)) :
    Keeps k i op Q (query .freshToken >>= f) .idle := by
  have hdraw : Keeps k i op (fun r m => ∀ token, r = .ok token → m = .holding token)
      (query .freshToken) .idle := by
    intro s μ hI _
    refine ⟨trivial, ?_⟩
    intro ok _
    cases ok with
    | false =>
        refine ⟨.idle, hI.idle, ?_⟩
        intro token htoken
        cases htoken
    | true =>
        refine ⟨_, hI.draw hfresh, ?_⟩
        intro token htoken
        cases htoken
        rfl
  refine hdraw.attempt_bind ?_ fun e m' _ => he e m'
  intro token m hm
  rw [hm token rfl]
  exact hf token

theorem upsert_settled (id : Uuid) (token : String) (expiresAt : Int) :
    Keeps k i op Settled (query (.upsert id token expiresAt)) (.holding token) := by
  intro s μ hI hi
  refine ⟨trivial, ?_⟩
  intro ok _
  refine ⟨.idle, ?_, ?_⟩
  · cases ok with
    | false =>
        exact hI.idle
    | true =>
        exact hI.upsert hi
  · cases ((inviteSystem k).sem i (.upsert id token expiresAt) ok s).2 with
    | error e =>
        trivial
    | ok a =>
        rfl

theorem replaceLink_settled (id : Uuid) (token : String) (expiresAt : Int) :
    Keeps k i op Settled (query (.replaceLink id token expiresAt)) (.holding token) := by
  intro s μ hI hi
  refine ⟨trivial, ?_⟩
  intro ok _
  refine ⟨.idle, ?_, ?_⟩
  · cases ok with
    | false =>
        exact hI.idle
    | true =>
        exact hI.replaceLink hi
  · cases ((inviteSystem k).sem i (.replaceLink id token expiresAt) ok s).2 with
    | error e =>
        trivial
    | ok a =>
        rfl

include hhash hfresh in
theorem issue_settled (userId : Uuid) (email : String) (now : Int) :
    Keeps k i op Settled (issue userId email now) .idle := by
  unfold issue
  refine harmless_bind hhash (issues_lift trivial) (fun _ _ => trivial) fun _ => ?_
  refine freshToken_bind hfresh (fun _ _ => trivial) fun token => ?_
  exact settled_bind (upsert_settled userId token _) fun _ =>
    harmless_settled hhash (issues_lift trivial)

include hhash hfresh in
theorem createUser_settled (adminId newId : Uuid) (email : String) (role : Db.UserRole)
    (now : Int) : Keeps k i op Settled (createUser adminId newId email role now) .idle := by
  have hissue : ∀ id action, Keeps k i op Settled (do
      issue id email now
      query (.audit action id)) .idle := fun id action =>
    settled_bind (issue_settled hhash hfresh id email now) fun _ =>
      harmless_settled hhash (issues_query trivial)
  unfold createUser
  refine harmless_bind hhash (issues_requireAdmin _) (fun _ _ => trivial) fun _ => ?_
  refine harmless_bind hhash (issues_failIf _ _) (fun _ _ => trivial) fun _ => ?_
  refine harmless_bind hhash (issues_query trivial) (fun _ _ => trivial) fun found => ?_
  cases found with
  | some existing =>
      refine harmless_bind hhash (issues_failIf _ _) (fun _ _ => trivial) fun _ => ?_
      refine harmless_bind hhash (issues_query trivial) (fun _ _ => trivial) fun live => ?_
      refine harmless_bind hhash (issues_failIf _ _) (fun _ _ => trivial) fun _ => ?_
      refine harmless_bind hhash (issues_query trivial) (fun _ _ => trivial) fun _ => ?_
      exact hissue existing.id "admin.invitation_reissued"
  | none =>
      refine harmless_bind hhash (issues_query trivial) (fun _ _ => trivial) fun id => ?_
      exact hissue id "admin.invitation_created"

include hhash hfresh in
theorem resend_settled (adminId id : Uuid) (now : Int) :
    Keeps k i op Settled (resend adminId id now) .idle := by
  unfold resend
  refine harmless_bind hhash (issues_requireAdmin _) (fun _ _ => trivial) fun _ => ?_
  refine harmless_bind hhash (issues_pendingUser _) (fun _ _ => trivial) fun user => ?_
  refine harmless_bind hhash (issues_query trivial) (fun _ _ => trivial) fun pending => ?_
  refine harmless_bind hhash (issues_failIf _ _) (fun _ _ => trivial) fun _ => ?_
  exact settled_bind (issue_settled hhash hfresh id user.email now) fun _ =>
    harmless_settled hhash (issues_query trivial)

include hhash hfresh in
theorem createLink_settled (adminId id : Uuid) (now : Int) :
    Keeps k i op Settled (createLink adminId id now) .idle := by
  unfold createLink
  refine harmless_bind hhash (issues_requireAdmin _) (fun _ _ => trivial) fun _ => ?_
  refine harmless_bind hhash (issues_pendingUser _) (fun _ _ => trivial) fun _ => ?_
  refine freshToken_bind hfresh (fun _ _ => trivial) fun token => ?_
  refine settled_bind (replaceLink_settled id token _) fun _ => ?_
  exact harmless_settled hhash
    (issues_bind (issues_failIf _ _) fun _ => issues_query trivial)

/-- The transaction is made for the account that was found by its email. -/
theorem accept_settled (id : Uuid) (info : GoogleInfo) (now : Int) :
    Keeps k i (.googleCallback info now) Settled (query (.accept id info.sub now))
      (.found id info.email) := by
  intro s μ hI hi
  have hfound := hI.notes i
  rw [hi] at hfound
  refine ⟨⟨info, rfl, rfl, hfound⟩, ?_⟩
  intro ok _
  refine ⟨.idle, ?_, ?_⟩
  · cases ok with
    | false =>
        exact hI.idle
    | true =>
        exact (hI.accept id info.sub now).idle
  · cases ((inviteSystem k).sem i (.accept id info.sub now) ok s).2 with
    | error e =>
        trivial
    | ok a =>
        rfl

include hhash in
theorem linkAccount_keeps (u : Sessions.Account) (info : GoogleInfo) (now : Int) :
    Keeps k i (.googleCallback info now) (fun _ _ => True) (linkAccount u info now)
      (.found u.id info.email) := by
  unfold linkAccount
  split
  · refine (accept_settled u.id info now).attempt_bind ?_ fun _ _ _ => trivial
    intro ending m _
    refine (harmless_keeps hhash ?_).mono fun _ _ _ => trivial
    refine issues_bind (issues_failIf _ _) fun _ => ?_
    exact issues_bind (issues_failIf _ _) fun _ => issues_lift trivial
  · refine (harmless_keeps hhash ?_).mono fun _ _ _ => trivial
    refine issues_bind (issues_failIf _ _) fun _ => ?_
    exact issues_bind (issues_query trivial) fun _ => issues_failIf _ _

include hhash in
theorem invitedAccount_keeps (info : GoogleInfo) (now : Int) :
    Keeps k i (.googleCallback info now) (fun _ _ => True) (invitedAccount info now) .idle := by
  have hfind : Keeps k i (.googleCallback info now)
      (fun r m => ∀ u, r = .ok (some u) → m = .found u.id info.email)
      (query (.findByEmail info.email)) .idle := by
    intro s μ hI _
    refine ⟨trivial, ?_⟩
    intro ok _
    cases ok with
    | false =>
        refine ⟨.idle, hI.idle, ?_⟩
        intro u hu
        cases hu
    | true =>
        cases hfound : Sessions.findByEmail s.users info.email with
        | none =>
            refine ⟨.idle, hI.idle, ?_⟩
            intro u hu
            simp only [inviteSystem, InviteCmd.sem, InviteCmd.exec, hfound] at hu
            cases hu
        | some u =>
            have hmem : u ∈ s.users := List.mem_of_find?_eq_some hfound
            have hemail : u.email = info.email := by
              simpa using List.find?_some hfound
            refine ⟨.found u.id info.email, hI.note ⟨u, hmem, rfl, hemail⟩ ?_, ?_⟩
            · intro token htoken
              cases htoken
            · intro u' hu'
              simp only [inviteSystem, InviteCmd.sem, InviteCmd.exec, hfound] at hu'
              cases hu'
              rfl
  unfold invitedAccount
  refine hfind.attempt_bind ?_ fun _ _ _ => trivial
  intro invited m hm
  cases invited with
  | none =>
      trivial
  | some u =>
      rw [hm u rfl]
      refine (linkAccount_keeps hhash u info now).attempt_bind ?_ fun _ _ _ => trivial
      intro _ m _
      refine (harmless_keeps hhash ?_).mono fun _ _ _ => trivial
      refine issues_bind (issues_lift trivial) fun _ => ?_
      exact issues_bind (issues_query trivial) fun _ => issues_okOr _ _

include hhash in
theorem googleCallback_keeps (info : GoogleInfo) (now : Int) :
    Keeps k i (.googleCallback info now) (fun _ _ => True) (googleCallback info now) .idle := by
  have haccount : ∀ linked, Keeps k i (.googleCallback info now) (fun _ _ => True)
      (callbackAccount linked info now) .idle := by
    intro linked
    cases linked with
    | none =>
        exact invitedAccount_keeps hhash info now
    | some u =>
        trivial
  unfold googleCallback
  refine harmless_bind hhash (issues_lift trivial) (fun _ _ => trivial) fun _ => ?_
  refine harmless_bind hhash (issues_failIf _ _) (fun _ _ => trivial) fun _ => ?_
  refine harmless_bind hhash (issues_query trivial) (fun _ _ => trivial) fun linked => ?_
  refine (haccount linked).attempt_bind ?_ fun _ _ _ => trivial
  intro user m _
  refine (harmless_keeps hhash ?_).mono fun _ _ _ => trivial
  exact issues_bind (issues_failIf _ _) fun _ => issues_failIf _ _

include hhash in
theorem setUserStatus_keeps (adminId id : Uuid) (status : UserStatus) :
    Keeps k i (.setUserStatus adminId id status) (fun _ _ => True)
      (setUserStatus adminId id status) .idle := by
  unfold setUserStatus
  refine harmless_bind hhash (issues_requireAdmin _) (fun _ _ => trivial) fun _ => ?_
  refine harmless_bind hhash (issues_failIf _ _) (fun _ _ => trivial) fun _ => ?_
  refine harmless_bind hhash (issues_query trivial) (fun _ _ => trivial) fun found => ?_
  refine harmless_bind hhash (issues_okOr _ _) (fun _ _ => trivial) fun user => ?_
  by_cases hpending :
      (user.status == .pendingVerification || status == .pendingVerification) = true
  · rw [hpending]
    trivial
  · rw [Bool.not_eq_true] at hpending
    rw [hpending]
    have hset : Keeps k i (.setUserStatus adminId id status) (fun _ _ => True)
        (query (.adminSetStatus id status)) .idle := by
      intro s μ hI hi
      refine ⟨⟨adminId, rfl⟩, ?_⟩
      intro ok _
      refine ⟨.idle, ?_, trivial⟩
      cases ok with
      | false =>
          exact hI.idle
      | true =>
          refine (hI.users (usersGrow_updateWhere (f := fun u => { u with status := status })
            (fun _ => rfl) (fun _ => rfl) ?_)).idle
          intro _ hstatus
          have hrefused : (status == .pendingVerification) = true := beq_iff_eq.mpr hstatus
          rw [hrefused, Bool.or_true] at hpending
          cases hpending
    refine hset.attempt_bind ?_ fun _ _ _ => trivial
    intro n m _
    refine (harmless_keeps hhash ?_).mono fun _ _ _ => trivial
    exact issues_bind (issues_failIf _ _) fun _ => issues_query trivial

include hhash hfresh in
theorem handler_keeps (op : InviteOp) : Keeps k i op (fun _ _ => True) op.handler .idle := by
  cases op with
  | createUser adminId newId email role now =>
      exact (createUser_settled hhash hfresh adminId newId email role now).mono fun _ _ _ => trivial
  | resend adminId id now =>
      exact (resend_settled hhash hfresh adminId id now).mono fun _ _ _ => trivial
  | createLink adminId id now =>
      exact (createLink_settled hhash hfresh adminId id now).mono fun _ _ _ => trivial
  | verify token now =>
      refine (harmless_keeps hhash ?_).mono fun _ _ _ => trivial
      refine issues_bind (issues_failIf _ _) fun _ => ?_
      exact issues_bind (issues_query trivial) fun _ => issues_failIf _ _
  | revoke adminId id now =>
      refine (harmless_keeps hhash ?_).mono fun _ _ _ => trivial
      refine issues_bind (issues_requireAdmin _) fun _ => ?_
      refine issues_bind (issues_query trivial) fun _ => ?_
      exact issues_bind (issues_failIf _ _) fun _ => issues_query trivial
  | googleCallback info now =>
      exact googleCallback_keeps hhash info now
  | setUserStatus adminId id status =>
      exact setUserStatus_keeps hhash adminId id status

end Requests

section Activation

variable {k : Tokens} {s : Registry} {id : Uuid}

theorem findById_updateWhere {users : List Sessions.Account} {p : Sessions.Account → Bool} {f : Sessions.Account → Sessions.Account}
    (hid : ∀ u, (f u).id = u.id) :
    Sessions.findById (updateWhere p f users) id =
      (Sessions.findById users id).map fun u => if p u then f u else u := by
  unfold Sessions.findById updateWhere
  rw [List.find?_map]
  congr 2
  funext u
  simp only [Function.comp_apply]
  split
  · rw [hid u]
  · rfl

/-- An update that activates an account changes its row. -/
theorem activates_update {p : Sessions.Account → Bool} {f : Sessions.Account → Sessions.Account} {s' : Registry}
    (hid : ∀ u, (f u).id = u.id) (hs' : s'.users = updateWhere p f s.users)
    (h : Activates s s' id) :
    ∃ u u', u.status = .pendingVerification ∧ (u' = if p u then f u else u) ∧ u.id = id ∧
      u'.status = .active := by
  obtain ⟨hbefore, hafter⟩ := h
  simp only [Registry.statusOf, hs', findById_updateWhere hid, Option.map_map] at hbefore hafter
  obtain ⟨u, hu, hpending⟩ := Option.map_eq_some_iff.mp hbefore
  rw [hu] at hafter
  exact ⟨u, _, hpending, rfl, Sessions.findById_id hu, Option.some_inj.mp hafter⟩

/-- An update of other columns activates no account. -/
theorem not_activates_update {p : Sessions.Account → Bool} {f : Sessions.Account → Sessions.Account}
    (hid : ∀ u, (f u).id = u.id) (hstatus : ∀ u, (f u).status = u.status) :
    ¬ Activates s { s with users := updateWhere p f s.users } id := by
  intro h
  obtain ⟨u, u', hpending, hu', -, hactive⟩ := activates_update hid rfl h
  have hsame : u'.status = u.status := by
    rw [hu']
    split
    · exact hstatus u
    · rfl
  rw [hsame, hpending] at hactive
  cases hactive

theorem not_activates_same {s' : Registry} (h : s'.users = s.users) : ¬ Activates s s' id := by
  rintro ⟨hbefore, hafter⟩
  unfold Registry.statusOf at hbefore hafter
  rw [h, hbefore] at hafter
  cases hafter

/-- The calls that activate an account. -/
theorem activates_exec {c : InviteCmd} (h : Activates s (c.exec k s).1 id) :
    (∃ googleId now, c = .accept id googleId now ∧
      rowsAffected (Registry.consumable id now) s.invitations ≠ 0) ∨
      c = .adminSetStatus id .active := by
  cases c with
  | createUser newId email role =>
      exfalso
      simp only [InviteCmd.exec, Registry.createUser] at h
      split at h
      · exact not_activates_same rfl h
      · obtain ⟨hbefore, hafter⟩ := h
        unfold Registry.statusOf Sessions.findById at hbefore hafter
        rw [List.find?_append] at hafter
        cases hfind : s.users.find? (fun u => u.id == id) with
        | none =>
            rw [hfind] at hbefore
            cases hbefore
        | some u =>
            rw [hfind] at hbefore hafter
            rw [Option.some_or] at hafter
            rw [hbefore] at hafter
            cases hafter
  | updateRole userId role =>
      exact absurd h (not_activates_update (fun _ => rfl) fun _ => rfl)
  | linkGoogle userId googleId =>
      exfalso
      simp only [InviteCmd.exec, Registry.linkGoogle] at h
      split at h
      · exact not_activates_same rfl h
      · exact not_activates_update (f := fun u => { u with googleId := some googleId })
          (fun _ => rfl) (fun _ => rfl) h
  | adminSetStatus userId status =>
      right
      obtain ⟨u, u', hpending, hu', hid, hactive⟩ :=
        activates_update (f := fun u => { u with status := status }) (fun _ => rfl) rfl h
      split at hu'
      · rename_i hkey
        subst hu'
        cases hactive
        rw [← hid, eq_of_beq hkey]
      · rw [hu', hpending] at hactive
        cases hactive
  | accept userId googleId now =>
      left
      simp only [InviteCmd.exec, Registry.accept] at h
      split at h
      · exact absurd h (not_activates_same rfl)
      rename_i haffected
      split at h
      · exact absurd h (not_activates_same rfl)
      split at h
      · exact absurd h (not_activates_same rfl)
      obtain ⟨u, u', hpending, hu', hid, hactive⟩ :=
        activates_update (f := fun u => { u with status := .active, googleId := some googleId })
          (fun _ => rfl) rfl h
      split at hu'
      · rename_i hactivatable
        simp only [Registry.activatable, Bool.and_eq_true, beq_iff_eq] at hactivatable
        have hsame : userId = id := hactivatable.1.1.symm.trans hid
        subst hsame
        exact ⟨googleId, now, rfl, haffected⟩
      · rw [hu', hpending] at hactive
        cases hactive
  | upsert userId token expiresAt =>
      exfalso
      simp only [InviteCmd.exec, Registry.upsert] at h
      split at h <;> exact not_activates_same rfl h
  | replaceLink userId token expiresAt =>
      exfalso
      simp only [InviteCmd.exec, Registry.replaceLink] at h
      split at h
      · exact not_activates_same rfl h
      · split at h <;> exact not_activates_same rfl h
  | revoke userId now =>
      exfalso
      simp only [InviteCmd.exec, Registry.revoke] at h
      split at h <;> exact not_activates_same rfl h
  | _ =>
      exact absurd h (not_activates_same rfl)

end Activation

/-- The invariant of the requests. -/
abbrev InviteInv (k : Tokens) (p : InvitePool) : Prop :=
  PoolInv (inviteSystem k) (Book k) Obliged (fun _ _ _ => True) (fun _ _ _ _ => True) .idle p

theorem activatesRightly_of_inv {k : Tokens} {p : InvitePool} (h : InviteInv k p)
    (e : PoolEvent InviteOp Unit) : ActivatesRightly k p e := by
  intro id hact
  cases e with
  | spawn op =>
      exact absurd hact (not_activates_same rfl)
  | crash i =>
      refine absurd hact (not_activates_same ?_)
      simp only [poolStep]
      split <;> rfl
  | restart g =>
      exact absurd hact (not_activates_same rfl)
  | step i ok =>
      simp only [poolStep] at hact
      split at hact
      · rename_i op c q hi
        have hnext : nextCall p i = some (op, c) := by
          simp [nextCall, hi]
        have hobliged := obligation_of_poolInv h hnext
        cases ok with
        | false =>
            exact absurd hact (not_activates_same rfl)
        | true =>
            refine ⟨i, rfl, ?_⟩
            rcases activates_exec hact with ⟨googleId, now, rfl, haffected⟩ | rfl
            · obtain ⟨info, rfl, rfl, hemail⟩ := hobliged
              refine Or.inl ⟨info, now, hnext, hemail, ?_⟩
              obtain ⟨r, hr⟩ := List.exists_mem_of_length_pos (Nat.pos_of_ne_zero haffected)
              obtain ⟨hmem, hconsumable⟩ := List.mem_filter.mp hr
              obtain ⟨μ, hbook, -, -⟩ := h
              exact (hbook.ledger.rows r hmem).redeemable hconsumable
            · obtain ⟨adminId, rfl⟩ := hobliged
              exact Or.inr ⟨adminId, hnext⟩
      · exact absurd hact (not_activates_same rfl)

/-- Nobody has been invited. -/
def noInvitations (users : List Sessions.Account) : Registry where
  users := users
  invitations := []
  drawn := 0
  history := []

theorem book_noInvitations {k : Tokens} {users : List Sessions.Account}
    (husers : (users.map Sessions.Account.id).Nodup) :
    Book k (noInvitations users) fun _ => .idle where
  ledger :=
    { accounts := husers
      keys := List.nodup_nil
      rows := by
        intro r hr
        cases hr
      drawn := by
        intro token htoken
        cases htoken
      stored := List.nodup_nil
      activated := by
        intro id hacc
        cases hacc
      redeemed := List.nodup_nil }
  notes _ := trivial
  apart := by
    intro i j token hi
    cases hi

/--
In every run, every account that leaves `pending_verification` for `active` does so in the
transaction of a `google_callback` for its email, while the token that was stored last for it
could be redeemed, or by the hand of an admin; and no token activates twice.
-/
theorem activation_by_current_token (k : Tokens) (hhash : Function.Injective k.hash)
    (hfresh : Function.Injective k.fresh) (users : List Sessions.Account)
    (husers : (users.map Sessions.Account.id).Nodup) (es : List (PoolEvent InviteOp Unit)) :
    Along (poolStep (inviteSystem k)) (ActivatesRightly k) (inviteIdle (noInvitations users)) es ∧
      Always (poolStep (inviteSystem k)) (fun p => (redeemed p.shared.history).Nodup)
        (inviteIdle (noInvitations users)) es := by
  have hinit : InviteInv k (inviteIdle (noInvitations users)) :=
    poolInv_init (book_noInvitations husers)
  have hstep : ∀ p e, InviteInv k p → InviteInv k (poolStep (inviteSystem k) p e) := by
    intro p e hp
    have hmeets : EventMeets (fun _ _ _ => True) (fun _ => True) (fun _ _ => True) p e := by
      cases e with
      | step i ok =>
          intro _ _ _
          trivial
      | _ =>
          trivial
    refine poolInv_step ?_ ?_ ?_ p e hp hmeets
    · intro op _ i
      exact handler_keeps hhash hfresh op
    · intro i s μ hI
      exact hI.idle
    · intro _ s μ _ hI
      exact ⟨hI.ledger, fun _ => trivial, fun _ _ _ hj => by cases hj⟩
  refine ⟨?_, ?_⟩
  · have hany : Along (poolStep (inviteSystem k)) (fun _ _ => True)
        (inviteIdle (noInvitations users)) es := along_of_forall (fun _ _ => trivial) _ es
    exact along_of_inv (InviteInv k) (fun p e hp _ => hstep p e hp)
      (fun p e hp _ => activatesRightly_of_inv hp e) hinit hany
  · refine always_of_inv (InviteInv k) hstep ?_ hinit es
    rintro p ⟨μ, hbook, -, -⟩
    exact hbook.ledger.redeemed

/-- Short tokens and their own hashes. -/
def sampleTokens : Tokens where
  hash := id
  fresh n := String.ofList (List.replicate (n + 16) 't')

theorem sampleTokens_fresh : Function.Injective sampleTokens.fresh := by
  intro n n' h
  have hlength := congrArg String.length h
  simp only [sampleTokens, String.length_ofList, List.length_replicate] at hlength
  omega

def sampleAdmin : Sessions.Account := ⟨1, "admin@example.org", some "g1", .admin, .active, false, 0⟩

/-- Account 7 is invited, the link is presented, and the owner signs in with Google. -/
def sampleInvitation : List (PoolEvent InviteOp Unit) :=
  PoolEvent.spawn (InviteOp.createUser 1 7 "new@example.org" .user 0) ::
    List.replicate 8 (PoolEvent.step 0 true) ++
      PoolEvent.spawn (InviteOp.verify (sampleTokens.fresh 0) 5) :: PoolEvent.step 1 true ::
        PoolEvent.spawn (InviteOp.googleCallback ⟨"g7", "new@example.org", true⟩ 9) ::
          List.replicate 7 (PoolEvent.step 2 true)

theorem activation_by_current_token_sample :
    let p := runEvents (poolStep (inviteSystem sampleTokens))
      (inviteIdle (noInvitations [sampleAdmin])) sampleInvitation
    p.shared.statusOf 7 = some .active ∧ (redeemed p.shared.history).Nodup ∧
      (redeemed p.shared.history).length = 1 := by
  have hrun := activation_by_current_token sampleTokens Function.injective_id sampleTokens_fresh
    [sampleAdmin] (by decide) sampleInvitation
  exact ⟨by decide, hrun.2.last, by decide⟩

end Invitations
end Api
end ZeroVpn
