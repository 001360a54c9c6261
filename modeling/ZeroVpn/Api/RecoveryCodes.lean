import ZeroVpn.Api.Commands
import ZeroVpn.Library.Notes

/-!
# Recovery codes

`verify_totp_or_recovery` of `routes/auth.rs` and `regenerate_recovery_codes` of
`routes/totp.rs` over the two columns of `users` that they share.  A verification
reads the whole list of hashes, looks for the code in it and writes the list back
without the matched entry; a regeneration writes a new list.  Both writes are
unconditional, so one of them may bring back what the other one removed.

The cryptography is a parameter: `Crypto.verify` is the comparison of a code with
an Argon2 hash, `Crypto.checkTotp` the comparison with the secret at some moment.
The history of a store is not part of the program: the sets of codes that were
handed out, and the codes that were accepted.
-/

namespace ZeroVpn

open Library

namespace Api
namespace RecoveryCodes

open Db (Uuid DbError)

/-- The primitives that the two functions call. -/
structure Crypto where
  /-- `kek.decrypt` and `String::from_utf8`. -/
  decrypt : List UInt8 → Option String
  /-- `totp::verify` at a moment; nothing when it fails. -/
  checkTotp : String → String → Int → Option Bool
  /-- `password::verify`; nothing when the hash cannot be parsed. -/
  verify : String → String → Option Bool

/-- The hash is that of the code. -/
def Crypto.Opens (k : Crypto) (code hash : String) : Prop :=
  ∀ c, k.verify c hash = some (decide (c = code))

/-- What `generate_recovery_codes` makes: a code and its hash. -/
structure RecoveryCode (k : Crypto) where
  code : String
  hash : String
  opens : k.Opens code hash

/-- `match_recovery_code`: the index of the first hash that the code opens; nothing
when a hash cannot be parsed. -/
def matchRecoveryCode (k : Crypto) (code : String) : List String → Option (Option Nat)
  | [] => some none
  | h :: hs =>
      match k.verify code h with
      | none => none
      | some true => some (some 0)
      | some false => (matchRecoveryCode k code hs).map (Option.map (· + 1))

/-- The columns `totp_secret_encrypted` and `totp_recovery_codes_hashed`. -/
structure TotpRow where
  secretEncrypted : Option (List UInt8)
  recoveryCodesHashed : Option (List String)
  deriving DecidableEq

/-- A recovery code that was accepted, with the set that was in use at that moment. -/
structure Acceptance where
  userId : Uuid
  code : String
  current : List String
  deriving DecidableEq

structure Store where
  rows : Uuid → Option TotpRow
  /-- The sets of codes that were handed out to a user, the newest first. -/
  sets : Uuid → List (List String)
  /-- The codes that were accepted. -/
  accepted : List Acceptance

/-- `users::get_totp_material`. -/
def Store.getTotpMaterial (s : Store) (userId : Uuid) : Option (List UInt8 × List String) :=
  match s.rows userId with
  | some ⟨some secret, some codes⟩ => some (secret, codes)
  | _ => none

/-- Who writes the hashes. -/
inductive Writer where
  | verification (code : String)
  | regeneration (codes : List String)

/-- The set in use. -/
def Store.current (s : Store) (userId : Uuid) : List String := (s.sets userId).headD []

/-- `users::replace_recovery_codes`. -/
def Store.replaceRecoveryCodes (s : Store) (writer : Writer) (userId : Uuid)
    (newCodes : List String) : Store where
  rows := Function.update s.rows userId
    ((s.rows userId).map fun row => { row with recoveryCodesHashed := some newCodes })
  sets :=
    match writer with
    | .verification _ => s.sets
    | .regeneration codes => Function.update s.sets userId (codes :: s.sets userId)
  accepted :=
    match writer with
    | .verification code => ⟨userId, code, s.current userId⟩ :: s.accepted
    | .regeneration _ => s.accepted

/-- The statements. -/
inductive TotpCmd where
  | getTotpMaterial (userId : Uuid)
  | replaceRecoveryCodes (writer : Writer) (userId : Uuid) (newCodes : List String)
  | audit (action : String) (target : Uuid)

def TotpCmd.Reply : TotpCmd → Type
  | getTotpMaterial _ => Except DbError (Option (List UInt8 × List String))
  | replaceRecoveryCodes .. => Except DbError Unit
  | audit .. => Except DbError Unit

def TotpCmd.sem : (c : TotpCmd) → Bool → Store → Store × c.Reply
  | getTotpMaterial userId, true, s => (s, .ok (s.getTotpMaterial userId))
  | replaceRecoveryCodes writer userId newCodes, true, s =>
      (s.replaceRecoveryCodes writer userId newCodes, .ok ())
  | audit .., true, s => (s, .ok ())
  | getTotpMaterial _, false, s => (s, .error .unavailable)
  | replaceRecoveryCodes .., false, s => (s, .error .unavailable)
  | audit .., false, s => (s, .error .unavailable)

abbrev TotpHandler (α : Type) := Attempt TotpCmd TotpCmd.Reply ApiError α

def getTotpMaterial (userId : Uuid) : TotpHandler (Option (List UInt8 × List String)) :=
  Attempt.lift (.getTotpMaterial userId) fun r => r.mapError ApiError.database

def replaceRecoveryCodes (writer : Writer) (userId : Uuid) (newCodes : List String) :
    TotpHandler Unit :=
  Attempt.lift (.replaceRecoveryCodes writer userId newCodes) fun r =>
    r.mapError ApiError.database

def audit (action : String) (target : Uuid) : TotpHandler Unit :=
  Attempt.lift (.audit action target) fun r => r.mapError ApiError.database

/-- `verify_totp_or_recovery`. -/
def verifyTotpOrRecovery (k : Crypto) (userId : Uuid) (code : String) (now : Int) :
    TotpHandler Bool := do
  match ← getTotpMaterial userId with
  | none => pure false
  | some (secretEncrypted, recoveryHashes) =>
      match k.decrypt secretEncrypted with
      | none => throw (.internal [.text "decrypt"])
      | some secret =>
          if k.checkTotp secret code now = some true then pure true
          else
            match matchRecoveryCode k code recoveryHashes with
            | some (some idx) => do
                replaceRecoveryCodes (.verification code) userId (recoveryHashes.eraseIdx idx)
                pure true
            | _ => pure false

/-- `regenerate_recovery_codes`; the draw is what `generate_recovery_codes` makes. -/
def regenerateRecoveryCodes (k : Crypto) (userId : Uuid) (totpEnabled : Bool) (code : String)
    (now : Int) (draw : Option (List (RecoveryCode k))) : TotpHandler (List String) :=
  if totpEnabled then do
    match ← getTotpMaterial userId with
    | none => throw (.internal [.text "totp material missing"])
    | some (secretEncrypted, _) =>
        match k.decrypt secretEncrypted with
        | none => throw (.internal [.text "decrypt"])
        | some secret =>
            match k.checkTotp secret code now with
            | none => throw (.validation [.text "totp"])
            | some false => throw (.validation [.text "invalid 2FA code"])
            | some true =>
                match draw with
                | none => throw (.internal [.text "hash"])
                | some codes => do
                    replaceRecoveryCodes (.regeneration (codes.map RecoveryCode.code)) userId
                      (codes.map RecoveryCode.hash)
                    audit "user.totp_recovery_regenerated" userId
                    pure (codes.map RecoveryCode.code)
  else throw (.conflict [.text "2FA not enabled"])

/-- The requests. -/
inductive TotpOp (k : Crypto) where
  | verifyTotpOrRecovery (userId : Uuid) (code : String) (now : Int)
  | regenerateRecoveryCodes (userId : Uuid) (totpEnabled : Bool) (code : String) (now : Int)
      (draw : Option (List (RecoveryCode k)))

inductive TotpAnswer where
  | verified (ok : Bool)
  | recoveryCodes (codes : List String)

def TotpOp.handler {k : Crypto} : TotpOp k → TotpHandler TotpAnswer
  | verifyTotpOrRecovery userId code now => do
      let ok ← RecoveryCodes.verifyTotpOrRecovery k userId code now
      pure (.verified ok)
  | regenerateRecoveryCodes userId totpEnabled code now draw => do
      let codes ← RecoveryCodes.regenerateRecoveryCodes k userId totpEnabled code now draw
      pure (.recoveryCodes codes)

/-- Any number of requests over one store, each one statement at a time. -/
def totpSystem (k : Crypto) :
    System Store (TotpOp k) Unit TotpCmd TotpCmd.Reply (Except ApiError TotpAnswer) where
  body op := op.handler.run
  sem _ c ok s := c.sem ok s
  crash _ s := s
  restart _ s := s

abbrev TotpPool (k : Crypto) :=
  Pool Store (TotpOp k) TotpCmd TotpCmd.Reply (Except ApiError TotpAnswer)

def totpIdle {k : Crypto} (s : Store) : TotpPool k where
  shared := s
  threads := []

/-- How often a code of a user was accepted. -/
def Store.acceptedCount (s : Store) (userId : Uuid) (code : String) : Nat :=
  s.accepted.countP fun a => a.userId == userId && a.code == code

/-- How often a code was handed out to a user. -/
def Store.issuedCount (s : Store) (userId : Uuid) (code : String) : Nat :=
  (s.sets userId).flatten.count code

/-- Every code that was handed out is accepted at most once, and an accepted code belongs
to the set that was in use when it was accepted. -/
structure CodesOnce (s : Store) : Prop where
  once : ∀ userId code, s.acceptedCount userId code ≤ s.issuedCount userId code
  current : ∀ a ∈ s.accepted, a.code ∈ a.current

/-- The user whose hashes the statement writes. -/
def TotpCmd.writes : TotpCmd → Option Uuid
  | replaceRecoveryCodes _ userId _ => some userId
  | _ => none

/-- A verification of the user that stands between its read and its write. -/
def TotpCmd.consumes (userId : Uuid) : TotpCmd → Bool
  | replaceRecoveryCodes (.verification _) u _ => u == userId
  | _ => false

/-- The first request writes the hashes that the second one has read. -/
def collides {k : Crypto} : Option (TotpOp k × TotpCmd) → Option (TotpOp k × TotpCmd) → Bool
  | some (_, c), some (_, c') => c.writes.any fun userId => c'.consumes userId
  | _, _ => false

/-- Nobody writes the hashes of a user while another request, a verification of that user,
stands between its read and its write. -/
def Undisturbed {k : Crypto} (p : TotpPool k) : PoolEvent (TotpOp k) Unit → Prop
  | .step i ok =>
      ok = true → ∀ j < p.threads.length, j ≠ i →
        collides (nextCall p i) (nextCall p j) = false
  | _ => True

instance {k : Crypto} (p : TotpPool k) :
    (e : PoolEvent (TotpOp k) Unit) → Decidable (Undisturbed p e)
  | .spawn _ | .crash _ | .restart _ => .isTrue trivial
  | .step _ ok => inferInstanceAs (Decidable (ok = true → ∀ j < p.threads.length, _))

/-- The codes behind the stored hashes are codes of the set in use that were not accepted. -/
def StoredFor (k : Crypto) (s : Store) (userId : Uuid) (hashes : List String) : Prop :=
  ∃ codes, List.Forall₂ k.Opens codes hashes ∧ codes.Sublist (s.current userId) ∧
    ∀ code, codes.count code + s.acceptedCount userId code ≤ s.issuedCount userId code

/-- A store whose hashes are those of codes that were handed out. -/
structure Issued (k : Crypto) (s : Store) : Prop extends CodesOnce s where
  stored : ∀ userId row hashes, s.rows userId = some row →
    row.recoveryCodesHashed = some hashes → StoredFor k s userId hashes

section Matching

variable {k : Crypto}

/-- A match is the code behind the matched hash, and no match is left undecided. -/
theorem matchRecoveryCode_opens {code : String} {codes hashes : List String} {idx : Nat}
    (hopens : List.Forall₂ k.Opens codes hashes)
    (h : matchRecoveryCode k code hashes = some (some idx)) : codes[idx]? = some code := by
  induction hopens generalizing idx with
  | nil =>
      cases h
  | cons hopen hopens ih =>
      rename_i c hash codes hashes
      simp only [matchRecoveryCode, hopen code] at h
      by_cases hc : code = c
      · simp only [hc, decide_true, Option.some.injEq] at h
        subst h
        rw [hc]
        rfl
      · simp only [hc, decide_false, Option.map_eq_some_iff] at h
        obtain ⟨o, ho, hmap⟩ := h
        obtain ⟨n, hn, rfl⟩ := hmap
        subst hn
        exact ih ho

theorem forall₂_eraseIdx {codes hashes : List String} (h : List.Forall₂ k.Opens codes hashes)
    (idx : Nat) : List.Forall₂ k.Opens (codes.eraseIdx idx) (hashes.eraseIdx idx) := by
  induction h generalizing idx with
  | nil =>
      exact .nil
  | cons hopen hopens ih =>
      cases idx with
      | zero =>
          exact hopens
      | succ n =>
          exact .cons hopen (ih n)

theorem opens_of_draw (draw : List (RecoveryCode k)) :
    List.Forall₂ k.Opens (draw.map RecoveryCode.code) (draw.map RecoveryCode.hash) := by
  induction draw with
  | nil =>
      exact .nil
  | cons d draw ih =>
      exact .cons d.opens ih

/-- Removing one entry removes one occurrence. -/
theorem count_eraseIdx {codes : List String} {idx : Nat} {code : String}
    (h : codes[idx]? = some code) (c : String) :
    (codes.eraseIdx idx).count c + (if code = c then 1 else 0) = codes.count c := by
  induction codes generalizing idx with
  | nil =>
      cases h
  | cons d codes ih =>
      cases idx with
      | zero =>
          cases h
          rw [List.eraseIdx_cons_zero, List.count_cons]
          simp only [beq_iff_eq]
      | succ n =>
          rw [List.eraseIdx_cons_succ, List.count_cons, List.count_cons]
          have hrest := ih h
          omega

end Matching

section Writes

variable {k : Crypto} {s : Store}

/-- The stored hashes of the user are these. -/
def Store.Holds (s : Store) (userId : Uuid) (hashes : List String) : Prop :=
  ∃ row, s.rows userId = some row ∧ row.recoveryCodesHashed = some hashes

theorem holds_of_material {userId : Uuid} {secret : List UInt8} {hashes : List String}
    (h : s.getTotpMaterial userId = some (secret, hashes)) : s.Holds userId hashes := by
  unfold Store.getTotpMaterial at h
  split at h
  · rename_i secret' codes' hrow
    cases h
    exact ⟨_, hrow, rfl⟩
  · cases h

/-- A write leaves the hashes of the other users alone. -/
theorem rows_of_ne {writer : Writer} {userId other : Uuid} {newCodes : List String}
    (h : other ≠ userId) :
    (s.replaceRecoveryCodes writer userId newCodes).rows other = s.rows other :=
  Function.update_of_ne h ..

theorem recoveryCodes_of_replaced {writer : Writer} {userId : Uuid} {newCodes hashes : List String}
    {row : TotpRow} (hrow : (s.replaceRecoveryCodes writer userId newCodes).rows userId = some row)
    (hhashes : row.recoveryCodesHashed = some hashes) : hashes = newCodes := by
  simp only [Store.replaceRecoveryCodes, Function.update_self, Option.map_eq_some_iff] at hrow
  obtain ⟨_, _, rfl⟩ := hrow
  exact (Option.some.inj hhashes).symm

theorem acceptedCount_verification (userId other : Uuid) (code c : String)
    (newCodes : List String) :
    (s.replaceRecoveryCodes (.verification code) userId newCodes).acceptedCount other c =
      s.acceptedCount other c + if userId = other ∧ code = c then 1 else 0 := by
  simp only [Store.acceptedCount, Store.replaceRecoveryCodes, List.countP_cons, Bool.and_eq_true,
    beq_iff_eq]

/-- A verification writes the list that is stored, without the code that it accepts. -/
theorem Issued.verification (h : Issued k s) {userId : Uuid} {code : String} {hashes : List String}
    {idx : Nat} (hholds : s.Holds userId hashes)
    (hmatch : matchRecoveryCode k code hashes = some (some idx)) :
    Issued k (s.replaceRecoveryCodes (.verification code) userId (hashes.eraseIdx idx)) := by
  obtain ⟨row, hrow, hhashes⟩ := hholds
  obtain ⟨codes, hopens, hsub, hcount⟩ := h.stored userId row hashes hrow hhashes
  have hcode := matchRecoveryCode_opens hopens hmatch
  have hmem : code ∈ codes := List.mem_of_getElem? hcode
  -- the accepted code leaves the stored codes and enters the accepted ones
  have hmoved : ∀ c, (codes.eraseIdx idx).count c +
      (s.replaceRecoveryCodes (.verification code) userId (hashes.eraseIdx idx)).acceptedCount
        userId c ≤ s.issuedCount userId c := by
    intro c
    have herased := count_eraseIdx hcode c
    have hold := hcount c
    rw [acceptedCount_verification]
    by_cases hc : code = c
    · simp only [hc, if_true, and_self] at herased ⊢
      omega
    · simp only [hc, if_false, and_false] at herased ⊢
      omega
  refine ⟨⟨?_, ?_⟩, ?_⟩
  · intro other c
    by_cases hother : other = userId
    · rw [hother]
      exact Nat.le_trans (Nat.le_add_left _ _) (hmoved c)
    · rw [acceptedCount_verification, if_neg fun hboth => hother hboth.1.symm]
      exact h.once other c
  · intro a ha
    rcases List.mem_cons.mp ha with rfl | ha
    · exact hsub.subset hmem
    · exact h.current a ha
  · intro other row' hashes' hrow' hhashes'
    by_cases hother : other = userId
    · rw [hother] at hrow' ⊢
      rw [recoveryCodes_of_replaced hrow' hhashes']
      exact ⟨codes.eraseIdx idx, forall₂_eraseIdx hopens idx,
        (List.eraseIdx_sublist ..).trans hsub, hmoved⟩
    · rw [rows_of_ne hother] at hrow'
      obtain ⟨codes', hopens', hsub', hcount'⟩ := h.stored other row' hashes' hrow' hhashes'
      refine ⟨codes', hopens', hsub', ?_⟩
      intro c
      rw [acceptedCount_verification, if_neg fun hboth => hother hboth.1.symm]
      exact hcount' c

/-- A regeneration replaces the whole set. -/
theorem Issued.regeneration (h : Issued k s) (userId : Uuid) (draw : List (RecoveryCode k)) :
    Issued k (s.replaceRecoveryCodes (.regeneration (draw.map RecoveryCode.code)) userId
      (draw.map RecoveryCode.hash)) := by
  have hself : ∀ c, (s.replaceRecoveryCodes (.regeneration (draw.map RecoveryCode.code)) userId
      (draw.map RecoveryCode.hash)).issuedCount userId c =
        (draw.map RecoveryCode.code).count c + s.issuedCount userId c := by
    intro c
    simp only [Store.issuedCount, Store.replaceRecoveryCodes, Function.update_self,
      List.flatten_cons, List.count_append]
  have hother : ∀ other, other ≠ userId →
      (s.replaceRecoveryCodes (.regeneration (draw.map RecoveryCode.code)) userId
        (draw.map RecoveryCode.hash)).sets other = s.sets other :=
    fun other hne => Function.update_of_ne hne ..
  refine ⟨⟨?_, h.current⟩, ?_⟩
  · intro other c
    by_cases hne : other = userId
    · rw [hne, hself]
      exact Nat.le_trans (h.once userId c) (Nat.le_add_left _ _)
    · simp only [Store.issuedCount, hother other hne]
      exact h.once other c
  · intro other row hashes hrow hhashes
    by_cases hne : other = userId
    · rw [hne] at hrow ⊢
      rw [recoveryCodes_of_replaced hrow hhashes]
      refine ⟨draw.map RecoveryCode.code, opens_of_draw draw, ?_, ?_⟩
      · simp only [Store.current, Store.replaceRecoveryCodes, Function.update_self, List.headD_cons]
        exact List.Sublist.refl _
      · intro c
        rw [hself]
        exact Nat.add_le_add_left (h.once userId c) _
    · rw [rows_of_ne hne] at hrow
      obtain ⟨codes, hopens', hsub, hcount⟩ := h.stored other row hashes hrow hhashes
      refine ⟨codes, hopens', ?_, ?_⟩
      · simpa only [Store.current, hother other hne] using hsub
      · intro c
        simp only [Store.issuedCount, hother other hne]
        exact hcount c

end Writes

section Requests

variable {k : Crypto} {s : Store} {μ : Nat → Option (Uuid × List String)} {i : Nat} {op : TotpOp k}

/-- The note of a verification that is about to write: the hashes that it read. -/
structure Unread (k : Crypto) (s : Store) (μ : Nat → Option (Uuid × List String)) : Prop where
  issued : Issued k s
  read : ∀ i userId hashes, μ i = some (userId, hashes) → s.Holds userId hashes

/-- A request with a note is about to consume a code of that user. -/
def SuitsRead (_ : TotpOp k) (c : TotpCmd) (m : Option (Uuid × List String)) : Prop :=
  ∀ userId hashes, m = some (userId, hashes) → c.consumes userId = true

/-- The condition of a call, in terms of the notes. -/
def CallUndisturbed (i : Nat) (_ : TotpOp k) (c : TotpCmd) (ok : Bool) (_ : Store)
    (μ : Nat → Option (Uuid × List String)) : Prop :=
  ok = true → ∀ userId, c.writes = some userId →
    ∀ j, j ≠ i → ∀ hashes, μ j ≠ some (userId, hashes)

/-- A request with note `m` may run `p`, and ends without a note. -/
abbrev Consumes {α : Type} (i : Nat) (op : TotpOp k) (p : TotpHandler α)
    (m : Option (Uuid × List String)) : Prop :=
  Follows (totpSystem k) (Unread k) SuitsRead CallUndisturbed i op (fun _ m => m = none) p.run m

theorem suitsRead_none (c : TotpCmd) : SuitsRead op c none := by
  intro userId hashes hsome
  cases hsome

/-- A request may drop its note, and the others keep theirs, if nothing is written. -/
theorem Unread.drop (h : Unread k s μ) : Unread k s (Function.update μ i none) := by
  refine ⟨h.issued, ?_⟩
  intro j userId hashes hj
  by_cases hji : j = i
  · rw [hji, Function.update_self] at hj
    cases hj
  · rw [Function.update_of_ne hji] at hj
    exact h.read j userId hashes hj

/-- A write that nobody disturbs. -/
theorem Unread.write (h : Unread k s μ) {writer : Writer} {userId : Uuid} {newCodes : List String}
    (hissued : Issued k (s.replaceRecoveryCodes writer userId newCodes))
    (halone : ∀ j, j ≠ i → ∀ hashes, μ j ≠ some (userId, hashes)) :
    Unread k (s.replaceRecoveryCodes writer userId newCodes) (Function.update μ i none) := by
  refine ⟨hissued, ?_⟩
  intro j other hashes hj
  by_cases hji : j = i
  · rw [hji, Function.update_self] at hj
    cases hj
  · rw [Function.update_of_ne hji] at hj
    have hne : other ≠ userId := by
      rintro rfl
      exact halone j hji hashes hj
    obtain ⟨row, hrow, hhashes⟩ := h.read j other hashes hj
    exact ⟨row, (rows_of_ne hne).trans hrow, hhashes⟩

/-- The hashes that a verification goes on with, if it is about to consume a code. -/
def consumed (k : Crypto) (code : String) (now : Int) :
    Option (List UInt8 × List String) → Option (List String)
  | none => none
  | some (secretEncrypted, hashes) =>
      match k.decrypt secretEncrypted with
      | none => none
      | some secret =>
          if k.checkTotp secret code now = some true then none
          else
            match matchRecoveryCode k code hashes with
            | some (some _) => some hashes
            | _ => none

theorem consumed_eq_some {code : String} {now : Int}
    {material : Option (List UInt8 × List String)} {hashes : List String}
    (h : consumed k code now material = some hashes) :
    ∃ secret, material = some (secret, hashes) := by
  rcases material with _ | ⟨secret, hashes'⟩
  · cases h
  · simp only [consumed] at h
    split at h
    · cases h
    · split at h
      · cases h
      · split at h
        · cases h
          exact ⟨secret, rfl⟩
        · cases h

/-- The write of a verification. -/
theorem consume_consumes {userId : Uuid} {code : String} {hashes : List String} {idx : Nat}
    (hmatch : matchRecoveryCode k code hashes = some (some idx)) :
    Consumes i op
      (replaceRecoveryCodes (.verification code) userId (hashes.eraseIdx idx))
      (some (userId, hashes)) := by
  refine ⟨?_, ?_⟩
  · intro other hashes' hsome
    cases hsome
    simp [TotpCmd.consumes]
  · intro s μ ok hI hi hcond
    cases ok with
    | false =>
        exact ⟨none, hI.drop, rfl⟩
    | true =>
        have hissued := hI.issued.verification (hI.read i userId hashes hi) hmatch
        exact ⟨none, hI.write hissued (hcond rfl userId rfl), rfl⟩

theorem verifyTotpOrRecovery_consumes (userId : Uuid) (code : String) (now : Int) :
    Consumes i op (verifyTotpOrRecovery k userId code now) none := by
  have hread : Follows (totpSystem k) (Unread k) SuitsRead CallUndisturbed i op
      (fun r m => match r with
        | .ok material => m = (consumed k code now material).map fun hashes => (userId, hashes)
        | .error _ => m = none)
      (getTotpMaterial userId).run none := by
    refine ⟨suitsRead_none _, ?_⟩
    intro s μ ok hI hi _
    cases ok with
    | false =>
        exact ⟨none, hI.drop, rfl⟩
    | true =>
        refine ⟨_, ⟨hI.issued, ?_⟩, rfl⟩
        intro j other hashes hj
        by_cases hji : j = i
        · rw [hji, Function.update_self] at hj
          obtain ⟨hashes', hconsumed, hpair⟩ := Option.map_eq_some_iff.mp hj
          cases hpair
          obtain ⟨secret, hmaterial⟩ := consumed_eq_some hconsumed
          exact holds_of_material hmaterial
        · rw [Function.update_of_ne hji] at hj
          exact hI.read j other hashes hj
  unfold verifyTotpOrRecovery
  refine hread.attempt_bind ?_ fun _ _ h => h
  rintro material m rfl
  rcases material with _ | ⟨secretEncrypted, hashes⟩
  · rfl
  · simp only [consumed]
    cases hdecrypt : k.decrypt secretEncrypted with
    | none =>
        rfl
    | some secret =>
        by_cases htotp : k.checkTotp secret code now = some true
        · simp only [htotp, if_true]
          rfl
        · simp only [if_neg htotp]
          rcases hmatch : matchRecoveryCode k code hashes with _ | _ | idx
          · rfl
          · rfl
          · refine (consume_consumes hmatch).attempt_bind ?_ fun _ _ h => h
            rintro _ m rfl
            rfl

theorem regenerateRecoveryCodes_consumes (userId : Uuid) (totpEnabled : Bool) (code : String)
    (now : Int) (draw : Option (List (RecoveryCode k))) :
    Consumes i op (regenerateRecoveryCodes k userId totpEnabled code now draw) none := by
  have hread : Consumes i op (getTotpMaterial userId) none := by
    refine ⟨suitsRead_none _, ?_⟩
    intro s μ ok hI hi _
    cases ok <;> exact ⟨none, hI.drop, rfl⟩
  have haudit : ∀ action, Consumes i op (audit action userId) none := by
    intro action
    refine ⟨suitsRead_none _, ?_⟩
    intro s μ ok hI hi _
    cases ok <;> exact ⟨none, hI.drop, rfl⟩
  have hwrite : ∀ codes : List (RecoveryCode k), Consumes i op
      (replaceRecoveryCodes (.regeneration (codes.map RecoveryCode.code)) userId
        (codes.map RecoveryCode.hash)) none := by
    intro codes
    refine ⟨suitsRead_none _, ?_⟩
    intro s μ ok hI hi hcond
    cases ok with
    | false =>
        exact ⟨none, hI.drop, rfl⟩
    | true =>
        have hissued := hI.issued.regeneration userId codes
        exact ⟨none, hI.write hissued (hcond rfl userId rfl), rfl⟩
  unfold regenerateRecoveryCodes
  cases totpEnabled with
  | false =>
      rfl
  | true =>
      refine hread.attempt_bind ?_ fun _ _ h => h
      rintro material m rfl
      rcases material with _ | ⟨secretEncrypted, hashes⟩
      · rfl
      · dsimp only
        cases hdecrypt : k.decrypt secretEncrypted with
        | none =>
            rfl
        | some secret =>
            dsimp only
            rcases htotp : k.checkTotp secret code now with _ | _ | _
            · rfl
            · rfl
            · cases draw with
              | none =>
                  rfl
              | some codes =>
                  refine (hwrite codes).attempt_bind ?_ fun _ _ h => h
                  rintro _ m rfl
                  refine (haudit _).attempt_bind ?_ fun _ _ h => h
                  rintro _ m rfl
                  rfl

theorem handler_consumes (i : Nat) (op : TotpOp k) : Consumes i op op.handler none := by
  cases op with
  | verifyTotpOrRecovery userId code now =>
      refine (verifyTotpOrRecovery_consumes userId code now).attempt_bind ?_ fun _ _ h => h
      rintro _ m rfl
      rfl
  | regenerateRecoveryCodes userId totpEnabled code now draw =>
      refine (regenerateRecoveryCodes_consumes userId totpEnabled code now draw).attempt_bind ?_
        fun _ _ h => h
      rintro _ m rfl
      rfl

end Requests

section Main

variable {k : Crypto}

abbrev TotpNoted (p : TotpPool k) (μ : Nat → Option (Uuid × List String)) : Prop :=
  Noted (totpSystem k) (Unread k) SuitsRead CallUndisturbed (fun _ _ m => m = none) none p μ

/-- The condition on the next calls becomes one on the notes. -/
theorem callUndisturbed_of_undisturbed {p : TotpPool k} {μ : Nat → Option (Uuid × List String)}
    (h : TotpNoted p μ) {i : Nat} {ok : Bool} {op : TotpOp k} {c : TotpCmd}
    (he : Undisturbed p (.step i ok)) (hc : nextCall p i = some (op, c)) :
    CallUndisturbed i op c ok p.shared μ := by
  intro hok userId hwrites j hji hashes hj
  cases hnext : nextCall p j with
  | none =>
      rcases h.settled hnext with ⟨_, _, hnone⟩ | hnone
      · rw [hnone] at hj
        cases hj
      · rw [hnone] at hj
        cases hj
  | some call =>
      have hconsumes := h.suits hnext userId hashes hj
      obtain ⟨r, hr⟩ := nextCall_eq_some hnext
      have hfree := he hok j (List.getElem?_eq_some_iff.mp hr).1 hji
      rw [hc, hnext] at hfree
      simp [collides, hwrites, hconsumes] at hfree

/--
In every interleaving of verifications and regenerations in which nobody writes the
hashes of a user between the read and the write of a verification, every code is
accepted at most once, and only while its set is in use.
-/
theorem recovery_codes_single_use (k : Crypto) (s : Store) (es : List (PoolEvent (TotpOp k) Unit))
    (hs : Issued k s) (hrun : Along (poolStep (totpSystem k)) Undisturbed (totpIdle s) es) :
    Always (poolStep (totpSystem k)) (fun p => CodesOnce p.shared) (totpIdle s) es := by
  refine always_of_along (fun p => ∃ μ, TotpNoted p μ) ?_ ?_ ?_ hrun
  · rintro p e ⟨μ, hp⟩ he
    refine noted_step ?_ hp ?_ ?_ ?_
    · intro i op _
      exact handler_consumes i op
    · rintro i ok op c rfl hc
      exact callUndisturbed_of_undisturbed hp he hc
    · intro i op q _ _
      exact hp.inv.drop
    · intro g _
      refine ⟨hp.inv.issued, ?_⟩
      intro j userId hashes hnone
      cases hnone
  · rintro p ⟨μ, hp⟩
    exact hp.inv.issued.toCodesOnce
  · refine ⟨_, noted_init ⟨hs, ?_⟩⟩
    intro j userId hashes hnone
    cases hnone

/-- Hashes without collisions, and one valid code. -/
def sampleCrypto : Crypto where
  decrypt _ := some "secret"
  checkTotp _ code _ := some (decide (code = "123456"))
  verify code hash := some (decide (code = hash))

def sampleCode (code : String) : RecoveryCode sampleCrypto where
  code := code
  hash := code
  opens _ := rfl

/-- User 1 has two recovery codes. -/
def sampleStore : Store where
  rows := fun u => if u = 1 then some ⟨some [], some ["alpha", "beta"]⟩ else none
  sets := fun u => if u = 1 then [["alpha", "beta"]] else []
  accepted := []

theorem issued_sampleStore : Issued sampleCrypto sampleStore where
  once _ _ := Nat.zero_le _
  current a ha := by cases ha
  stored := by
    intro userId row hashes hrow hhashes
    by_cases hu : userId = 1
    · subst hu
      simp only [sampleStore, if_true, Option.some.injEq] at hrow
      subst hrow
      cases hhashes
      refine ⟨["alpha", "beta"], ?_, List.Sublist.refl _, fun code => Nat.le_of_eq ?_⟩
      · exact .cons (sampleCode "alpha").opens (.cons (sampleCode "beta").opens .nil)
      · simp [Store.acceptedCount, Store.issuedCount, sampleStore]
    · simp only [sampleStore, if_neg hu] at hrow
      cases hrow

/-- A code is used, the codes are regenerated and a new one is used. -/
def sampleVerifications : List (PoolEvent (TotpOp sampleCrypto) Unit) :=
  PoolEvent.spawn (TotpOp.verifyTotpOrRecovery 1 "alpha" 0) ::
    List.replicate 2 (PoolEvent.step 0 true) ++
      PoolEvent.spawn
          (TotpOp.regenerateRecoveryCodes 1 true "123456" 0 (some [sampleCode "gamma"])) ::
        List.replicate 3 (PoolEvent.step 1 true) ++
          PoolEvent.spawn (TotpOp.verifyTotpOrRecovery 1 "gamma" 0) ::
            List.replicate 2 (PoolEvent.step 2 true)

theorem recovery_codes_single_use_sample :
    let p := runEvents (poolStep (totpSystem sampleCrypto)) (totpIdle sampleStore)
      sampleVerifications
    CodesOnce p.shared ∧ p.shared.accepted =
      [⟨1, "gamma", ["gamma"]⟩, ⟨1, "alpha", ["alpha", "beta"]⟩] :=
  ⟨(recovery_codes_single_use sampleCrypto sampleStore sampleVerifications issued_sampleStore
    (by decide)).last, by decide⟩

/-- Two verifications read the same list and both accept its first code; and a verification
that overlaps a regeneration brings the old set back, so that a verification that starts
afterwards accepts a code of it. -/
theorem overlapping_verifications_reuse_codes :
    let twice := runEvents (poolStep (totpSystem sampleCrypto)) (totpIdle sampleStore)
      [.spawn (.verifyTotpOrRecovery 1 "alpha" 0), .spawn (.verifyTotpOrRecovery 1 "alpha" 0),
        .step 0 true, .step 1 true, .step 0 true, .step 1 true]
    let revived := runEvents (poolStep (totpSystem sampleCrypto)) (totpIdle sampleStore)
      (PoolEvent.spawn (TotpOp.verifyTotpOrRecovery 1 "alpha" 0) :: PoolEvent.step 0 true ::
        PoolEvent.spawn
            (TotpOp.regenerateRecoveryCodes 1 true "123456" 0 (some [sampleCode "gamma"])) ::
          List.replicate 3 (PoolEvent.step 1 true) ++
            [PoolEvent.step 0 true, PoolEvent.spawn (TotpOp.verifyTotpOrRecovery 1 "beta" 0),
              PoolEvent.step 2 true, PoolEvent.step 2 true])
    Issued sampleCrypto sampleStore ∧ ¬ CodesOnce twice.shared ∧
      (twice.shared.acceptedCount 1 "alpha" = 2 ∧ twice.shared.issuedCount 1 "alpha" = 1) ∧
      revived.shared.accepted.head? = some ⟨1, "beta", ["gamma"]⟩ := by
  refine ⟨issued_sampleStore, ?_, by decide, by decide⟩
  intro h
  have honce := h.once 1 "alpha"
  revert honce
  decide

end Main

end RecoveryCodes

end Api
end ZeroVpn
