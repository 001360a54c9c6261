import ZeroVpn.Library.Pool
import Mathlib.Data.List.Induction

/-!
# The states of a sign-in at Google

`google_start` of `crates/zerovpn-api/src/routes/oauth.rs`, `google_callback` up to
the exchange of the code, `insert` and `consume` of `repos/oauth_states.rs`, and the
purge of expired rows of `retention.rs`.

The browser gets a random `state` and the table keeps its hash with a verifier and a
time of expiry.  The callback deletes the row of its state and goes on with the
verifier.  The expiry is written with the clock of the API, compared with the clock
of the database in `consume` and with the clock of the worker in the purge, so the
three clocks are unrelated here.

The log of a run has every statement that took effect.  `awaiting h` is what it says
about a hash: the row that was issued last, unless it was consumed or purged.

**Results.**
* `Proper.count_consumed_le`: a state is consumed at most as often as it was issued;
* `awaiting_eq_some`: the row that awaits a callback is the last one issued;
* `google_states_single_use`: this holds in every run, together with the table.
-/

namespace ZeroVpn

open Library

namespace Api
namespace OauthStates

/-- A row of `oauth_states` without its key; times are in microseconds. -/
structure OauthState where
  pkceVerifier : String
  expiresAt : Int
  deriving DecidableEq, Repr

/-- `STATE_TTL`, in microseconds. -/
def stateTtl : Int := 10 * 60 * 1000000

/-- A statement that took effect, or a request to Google. -/
inductive Happening where
  | issued (stateHash : String) (row : OauthState)
  | consumed (thread : Nat) (stateHash verifier : String) (now : Int)
  | purged (now : Int)
  | exchanged (thread : Nat) (code verifier : String)
  deriving DecidableEq, Repr

/-- The table by its key, the clock of the database and the log. -/
structure Store where
  rows : String → Option OauthState
  now : Int
  log : List Happening

section Statements

variable (s : Store)

/-- `insert`; the key is the primary key. -/
def Store.insert (stateHash : String) (row : OauthState) : Store × Bool :=
  match s.rows stateHash with
  | some _ => (s, false)
  | none =>
      ({ s with
          rows := Function.update s.rows stateHash (some row)
          log := s.log ++ [.issued stateHash row] }, true)

/-- `consume`: the row goes and its verifier is returned, unless it has expired. -/
def Store.consume (thread : Nat) (stateHash : String) : Store × Option String :=
  match s.rows stateHash with
  | none => (s, none)
  | some row =>
      if s.now < row.expiresAt then
        ({ s with
            rows := Function.update s.rows stateHash none
            log := s.log ++ [.consumed thread stateHash row.pkceVerifier s.now] },
          some row.pkceVerifier)
      else (s, none)

/-- `DELETE FROM oauth_states WHERE expires_at <= $1`. -/
def Store.purge (now : Int) : Store :=
  { s with
    rows := fun h => (s.rows h).filter fun row => now < row.expiresAt
    log := s.log ++ [.purged now] }

end Statements

section Requests

inductive OauthCmd where
  | insert (stateHash : String) (row : OauthState)
  | consume (stateHash : String)
  | purge (now : Int)
  | exchange (code verifier : String)
  | wait (time : Nat)
  deriving DecidableEq, Repr

/-- A statement that fails changes nothing. -/
def OauthCmd.Reply : OauthCmd → Type
  | .insert _ _ => Bool
  | .consume _ => Option (Option String)
  | .purge _ => Unit
  | .exchange _ _ => Bool
  | .wait _ => Unit

def OauthCmd.sem (i : Nat) : (c : OauthCmd) → Bool → Store → Store × c.Reply
  | .insert h row, true, s => s.insert h row
  | .insert _ _, false, s => (s, false)
  | .consume h, true, s => ((s.consume i h).1, some (s.consume i h).2)
  | .consume _, false, s => (s, none)
  | .purge now, true, s => (s.purge now, ())
  | .purge _, false, s => (s, ())
  | .exchange code verifier, ok, s =>
      ({ s with log := s.log ++ [.exchanged i code verifier] }, ok)
  | .wait time, _, s => ({ s with now := s.now + time }, ())

inductive OauthError where
  | database
  | notConfigured
  | invalidState
  | exchangeFailed
  deriving DecidableEq, Repr

inductive OauthAnswer where
  | redirect (state : String)
  | disabled
  /-- The callback has a token and goes on with it. -/
  | token
  | done
  deriving DecidableEq, Repr

abbrev OauthProgram := Program OauthCmd OauthCmd.Reply (Except OauthError OauthAnswer)

/-- A start has its two draws and the clock of the API. -/
inductive OauthOp where
  | start (state verifier : String) (now : Int)
  | callback (code state : String)
  | purge (now : Int)
  | wait (time : Nat)
  deriving DecidableEq, Repr

variable (google : Bool) (sha256Hex : String → String)

/-- `google_start`; `google` says whether sign-in at Google is configured. -/
def googleStart (state verifier : String) (now : Int) : OauthProgram :=
  if google then
    .call (.insert (sha256Hex state) ⟨verifier, now + stateTtl⟩) fun (stored : Bool) =>
      if stored then .ret (.ok (.redirect state)) else .ret (.error .database)
  else .ret (.ok .disabled)

/-- `google_callback`, up to the token. -/
def googleCallback (code state : String) : OauthProgram :=
  if google then
    .call (.consume (sha256Hex state)) fun (r : Option (Option String)) =>
      match r with
      | none => .ret (.error .database)
      | some none => .ret (.error .invalidState)
      | some (some verifier) =>
          .call (.exchange code verifier) fun (ok : Bool) =>
            if ok then .ret (.ok .token) else .ret (.error .exchangeFailed)
  else .ret (.error .notConfigured)

def OauthOp.handler : OauthOp → OauthProgram
  | .start state verifier now => googleStart google sha256Hex state verifier now
  | .callback code state => googleCallback google sha256Hex code state
  | .purge now => .call (.purge now) fun _ => .ret (.ok .done)
  | .wait time => .call (.wait time) fun _ => .ret (.ok .done)

/-- A killed request leaves the table as it is, and so does a restart. -/
def oauthSystem :
    System Store OauthOp Unit OauthCmd OauthCmd.Reply (Except OauthError OauthAnswer) where
  body := OauthOp.handler google sha256Hex
  sem := OauthCmd.sem
  crash _ s := s
  restart _ s := s

abbrev OauthPool := Pool Store OauthOp OauthCmd OauthCmd.Reply (Except OauthError OauthAnswer)

def oauthIdle (now : Int) : OauthPool := ⟨⟨fun _ => none, now, []⟩, []⟩

end Requests

section Log

/-- What a happening does to the row of a hash. -/
def after (h : String) (row : Option OauthState) : Happening → Option OauthState
  | .issued h' row' => if h' = h then some row' else row
  | .consumed _ h' _ _ => if h' = h then none else row
  | .purged now => row.filter fun row => now < row.expiresAt
  | .exchanged _ _ _ => row

/-- The row of a hash, as the log has it. -/
def awaiting (h : String) (log : List Happening) : Option OauthState := log.foldl (after h) none

@[simp]
theorem awaiting_snoc (h : String) (log : List Happening) (x : Happening) :
    awaiting h (log ++ [x]) = after h (awaiting h log) x := by
  rw [awaiting, List.foldl_append]
  rfl

/-- The happening leaves a row of the hash that expires at `e` where it is. -/
def Quiet (h : String) (e : Int) : Happening → Prop
  | .issued h' _ => h' ≠ h
  | .consumed _ h' _ _ => h' ≠ h
  | .purged now => now < e
  | .exchanged _ _ _ => True

/-- The row that awaits a callback was issued, and since then nothing touched it. -/
theorem awaiting_eq_some {h : String} {log : List Happening} {row : OauthState}
    (hrow : awaiting h log = some row) :
    ∃ before since, log = before ++ .issued h row :: since ∧
      ∀ x ∈ since, Quiet h row.expiresAt x := by
  induction log using List.reverseRecOn with
  | nil =>
      cases hrow
  | append_singleton log x ih =>
      rw [awaiting_snoc] at hrow
      have keep : awaiting h log = some row → Quiet h row.expiresAt x →
          ∃ before since, log ++ [x] = before ++ .issued h row :: since ∧
            ∀ x ∈ since, Quiet h row.expiresAt x := by
        intro hold hx
        obtain ⟨before, since, rfl, hquiet⟩ := ih hold
        refine ⟨before, since ++ [x], by simp, ?_⟩
        intro y hy
        rcases List.mem_append.mp hy with hy | hy
        · exact hquiet y hy
        · rw [List.mem_singleton.mp hy]
          exact hx
      cases x with
      | issued h' row' =>
          by_cases heq : h' = h
          · subst heq
            rw [after, if_pos rfl] at hrow
            cases hrow
            exact ⟨log, [], rfl, fun x hx => by cases hx⟩
          · rw [after, if_neg heq] at hrow
            exact keep hrow heq
      | consumed i h' v now =>
          by_cases heq : h' = h
          · rw [after, if_pos heq] at hrow
            cases hrow
          · rw [after, if_neg heq] at hrow
            exact keep hrow heq
      | purged now =>
          obtain ⟨hold, hlive⟩ := Option.filter_eq_some_iff.mp hrow
          have hbefore : now < row.expiresAt := by simpa using hlive
          exact keep hold hbefore
      | exchanged i code v =>
          exact keep hrow trivial

/-- The happening suits the log before it. -/
def Fits (log : List Happening) : Happening → Prop
  | .issued h _ => awaiting h log = none
  | .consumed _ h v now => ∃ e, awaiting h log = some ⟨v, e⟩ ∧ now < e
  | .purged _ => True
  | .exchanged _ _ _ => True

/-- Every happening suits the log before it. -/
def Proper (log : List Happening) : Prop :=
  ∀ before x since, log = before ++ x :: since → Fits before x

theorem proper_nil : Proper [] := by
  intro before x since h
  cases before <;> cases h

theorem Proper.snoc {log : List Happening} {x : Happening} (h : Proper log) (hx : Fits log x) :
    Proper (log ++ [x]) := by
  intro before y since heq
  induction since using List.reverseRecOn with
  | nil =>
      obtain ⟨rfl, hy⟩ := List.append_inj' heq rfl
      cases hy
      exact hx
  | append_singleton since z _ =>
      rw [← List.cons_append, ← List.append_assoc] at heq
      exact h before y since (List.append_inj' heq rfl).1

theorem Proper.init {log : List Happening} {x : Happening} (h : Proper (log ++ [x])) :
    Proper log := by
  rintro before y since rfl
  exact h before y (since ++ [x]) (by simp)

def Happening.issues (h : String) : Happening → Bool
  | .issued h' _ => h' = h
  | _ => false

def Happening.consumes (h : String) : Happening → Bool
  | .consumed _ h' _ _ => h' = h
  | _ => false

def Happening.consumedBy (i : Nat) (v : String) : Happening → Bool
  | .consumed i' _ v' _ => i' = i ∧ v' = v
  | _ => false

def Happening.exchangedBy (i : Nat) (v : String) : Happening → Bool
  | .exchanged i' _ v' => i' = i ∧ v' = v
  | _ => false

/-- A row that is still there counts as one more that could be consumed. -/
theorem Proper.count_consumed_add_le {log : List Happening} (hlog : Proper log) (h : String) :
    log.countP (Happening.consumes h) + (awaiting h log).toList.length ≤
      log.countP (Happening.issues h) := by
  induction log using List.reverseRecOn with
  | nil =>
      exact Nat.le_refl _
  | append_singleton log x ih =>
      have hold := ih hlog.init
      have hx : Fits log x := hlog log x [] rfl
      rw [awaiting_snoc, List.countP_append, List.countP_append, List.countP_singleton,
        List.countP_singleton]
      cases x with
      | issued h' row =>
          by_cases heq : h' = h
          · subst heq
            have hnone : awaiting h' log = none := hx
            simp [after, Happening.issues, Happening.consumes, hnone] at hold ⊢
            omega
          · simpa [after, Happening.issues, Happening.consumes, heq] using hold
      | consumed i h' v now =>
          by_cases heq : h' = h
          · subst heq
            obtain ⟨e, hrow, _⟩ := hx
            simpa [after, Happening.issues, Happening.consumes, hrow] using hold
          · simpa [after, Happening.issues, Happening.consumes, heq] using hold
      | purged now =>
          have hless : ((awaiting h log).filter fun row => now < row.expiresAt).toList.length ≤
              (awaiting h log).toList.length := by
            cases awaiting h log with
            | none =>
                exact Nat.le_refl _
            | some row =>
                rw [Option.filter_some]
                split <;> simp
          simp only [after, Happening.issues, Happening.consumes, Bool.false_eq_true, if_false]
          omega
      | exchanged i code v =>
          simpa [after, Happening.issues, Happening.consumes] using hold

theorem Proper.count_consumed_le {log : List Happening} (hlog : Proper log) (h : String) :
    log.countP (Happening.consumes h) ≤ log.countP (Happening.issues h) :=
  Nat.le_trans (Nat.le_add_right _ _) (hlog.count_consumed_add_le h)

end Log

section Table

/-- What a thread that consumed a state still has: its hash and its verifier. -/
abbrev Note := Option (String × String)

/-- The table is what the log says, and a thread exchanges what it consumed. -/
structure Sound (s : Store) (notes : Nat → Note) : Prop where
  rows : ∀ h, s.rows h = awaiting h s.log
  proper : Proper s.log
  noted : ∀ i h v, notes i = some (h, v) → ∃ now, .consumed i h v now ∈ s.log
  spent : ∀ i v, s.log.countP (Happening.exchangedBy i v) +
    (notes i).toList.countP (fun m => m.2 = v) ≤ s.log.countP (Happening.consumedBy i v)

variable {s : Store} {notes : Nat → Note}

theorem sound_start (now : Int) : Sound ⟨fun _ => none, now, []⟩ fun _ => none where
  rows _ := rfl
  proper := proper_nil
  noted i h v hm := by cases hm
  spent _ _ := Nat.le_refl _

/-- A thread that is killed leaves its verifier unused. -/
theorem Sound.forget (h : Sound s notes) (i : Nat) :
    Sound s (Function.update notes i none) where
  rows := h.rows
  proper := h.proper
  noted := by
    intro j hash v hm
    by_cases hji : j = i
    · subst hji
      rw [Function.update_self] at hm
      cases hm
    · rw [Function.update_of_ne hji] at hm
      exact h.noted j hash v hm
  spent := by
    intro j v
    have hold := h.spent j v
    by_cases hji : j = i
    · subst hji
      rw [Function.update_self, Option.toList_none, List.countP_nil]
      omega
    · rw [Function.update_of_ne hji]
      exact hold

theorem Sound.forgetAll (h : Sound s notes) : Sound s fun _ => none where
  rows := h.rows
  proper := h.proper
  noted i hash v hm := by cases hm
  spent i v := Nat.le_trans (Nat.le_add_right _ _) (h.spent i v)

/-- A happening that consumes and exchanges nothing. -/
theorem Sound.record (h : Sound s notes) {x : Happening} {rows : String → Option OauthState}
    (hrows : ∀ hash, rows hash = after hash (s.rows hash) x) (hfits : Fits s.log x)
    (hconsumed : ∀ i v, x.consumedBy i v = false)
    (hexchanged : ∀ i v, x.exchangedBy i v = false) :
    Sound { s with rows := rows, log := s.log ++ [x] } notes where
  rows := by
    intro hash
    rw [awaiting_snoc, ← h.rows hash]
    exact hrows hash
  proper := h.proper.snoc hfits
  noted := by
    intro i hash v hm
    obtain ⟨now, hmem⟩ := h.noted i hash v hm
    exact ⟨now, List.mem_append_left _ hmem⟩
  spent := by
    intro i v
    rw [List.countP_append, List.countP_append, List.countP_singleton, List.countP_singleton,
      hconsumed, hexchanged]
    exact h.spent i v

theorem Sound.insert (h : Sound s notes) (hash : String) (row : OauthState) :
    Sound (s.insert hash row).1 notes := by
  unfold Store.insert
  split
  · exact h
  · rename_i hnone
    refine h.record ?_ ?_ (fun _ _ => rfl) (fun _ _ => rfl)
    · intro hash'
      by_cases heq : hash' = hash
      · subst heq
        rw [Function.update_self, after, if_pos rfl]
      · rw [Function.update_of_ne heq, after, if_neg (Ne.symm heq)]
    · exact (h.rows hash).symm.trans hnone

theorem Sound.purge (h : Sound s notes) (now : Int) : Sound (s.purge now) notes :=
  h.record (fun _ => rfl) trivial (fun _ _ => rfl) (fun _ _ => rfl)

theorem Sound.wait (h : Sound s notes) (time : Nat) :
    Sound { s with now := s.now + time } notes where
  rows := h.rows
  proper := h.proper
  noted := h.noted
  spent := h.spent

/-- The answer to `consume`, with the note of the thread. -/
theorem Sound.consume (h : Sound s notes) {i : Nat} (hi : notes i = none) (hash : String) :
    Sound (s.consume i hash).1
      (Function.update notes i ((s.consume i hash).2.map fun v => (hash, v))) := by
  unfold Store.consume
  split
  · exact h.forget i
  · rename_i row hrow
    split
    · rename_i hlive
      have hawaits : awaiting hash s.log = some row := (h.rows hash).symm.trans hrow
      refine ⟨?_, h.proper.snoc ⟨row.expiresAt, hawaits, hlive⟩, ?_, ?_⟩
      · intro hash'
        rw [awaiting_snoc, ← h.rows hash']
        change Function.update s.rows hash none hash' = _
        by_cases heq : hash' = hash
        · subst heq
          rw [Function.update_self, after, if_pos rfl]
        · rw [Function.update_of_ne heq, after, if_neg (Ne.symm heq)]
      · intro j hash' v hm
        by_cases hji : j = i
        · subst hji
          rw [Function.update_self] at hm
          cases hm
          exact ⟨s.now, List.mem_append_right _ List.mem_cons_self⟩
        · rw [Function.update_of_ne hji] at hm
          obtain ⟨now, hmem⟩ := h.noted j hash' v hm
          exact ⟨now, List.mem_append_left _ hmem⟩
      · intro j v
        have hold := h.spent j v
        rw [List.countP_append, List.countP_append, List.countP_singleton,
          List.countP_singleton]
        by_cases hji : j = i
        · subst hji
          rw [hi] at hold
          rw [Function.update_self]
          by_cases hv : row.pkceVerifier = v
          · simp [Happening.exchangedBy, Happening.consumedBy, hv] at hold ⊢
            omega
          · simpa [Happening.exchangedBy, Happening.consumedBy, hv] using hold
        · rw [Function.update_of_ne hji]
          simpa [Happening.exchangedBy, Happening.consumedBy, Ne.symm hji] using hold
    · exact h.forget i

/-- A thread exchanges its verifier. -/
theorem Sound.exchange (h : Sound s notes) {i : Nat} {hash v : String}
    (hi : notes i = some (hash, v)) (code : String) :
    Sound { s with log := s.log ++ [.exchanged i code v] } (Function.update notes i none) where
  rows := by
    intro hash'
    rw [awaiting_snoc]
    exact h.rows hash'
  proper := h.proper.snoc trivial
  noted := by
    intro j hash' v' hm
    obtain ⟨now, hmem⟩ := (h.forget i).noted j hash' v' hm
    exact ⟨now, List.mem_append_left _ hmem⟩
  spent := by
    intro j v'
    have hold := h.spent j v'
    rw [List.countP_append, List.countP_append, List.countP_singleton, List.countP_singleton]
    by_cases hji : j = i
    · subst hji
      rw [hi] at hold
      rw [Function.update_self]
      by_cases hv : v = v'
      · simpa [Happening.exchangedBy, Happening.consumedBy, hv] using hold
      · simpa [Happening.exchangedBy, Happening.consumedBy, hv] using hold
    · rw [Function.update_of_ne hji]
      simpa [Happening.exchangedBy, Happening.consumedBy, Ne.symm hji] using hold

end Table

section Main

variable (google : Bool) (sha256Hex : String → String)

/-- The statements on states and the requests to Google, with the request that makes
them: a callback consumes its own state and exchanges the verifier of that state. -/
def MadeBy : OauthOp → OauthCmd → Store → Prop
  | t, .insert h row, _ => ∃ state now,
      t = .start state row.pkceVerifier now ∧ h = sha256Hex state ∧ row.expiresAt = now + stateTtl
  | t, .consume h, _ => ∃ code state, t = .callback code state ∧ h = sha256Hex state
  | t, .exchange code verifier, s => ∃ state, t = .callback code state ∧
      ∃ i now, .consumed i (sha256Hex state) verifier now ∈ s.log
  | _, .purge _, _ => True
  | _, .wait _, _ => True

/-- What holds after every event of a run. -/
structure SingleUse (p : OauthPool) : Prop where
  /-- The table has exactly the rows that await their callback. -/
  table : ∀ h, p.shared.rows h = awaiting h p.shared.log
  /-- A state is consumed at most as often as it was issued. -/
  once : ∀ h, p.shared.log.countP (Happening.consumes h) ≤
    p.shared.log.countP (Happening.issues h)
  /-- The verifier is that of the last issue, which had not expired. -/
  timely : ∀ before i h v now since,
    p.shared.log = before ++ .consumed i h v now :: since →
      ∃ e first later, before = first ++ .issued h ⟨v, e⟩ :: later ∧ now < e ∧
        ∀ x ∈ later, Quiet h e x
  /-- A verifier goes to Google at most as often as the thread consumed it. -/
  spent : ∀ i v, p.shared.log.countP (Happening.exchangedBy i v) ≤
    p.shared.log.countP (Happening.consumedBy i v)
  madeBy : ∀ i t c, nextCall p i = some (t, c) → MadeBy sha256Hex t c p.shared

/-- A request of a thread without a note follows the invariant. -/
theorem handler_safe (i : Nat) (t : OauthOp) :
    SafeThen (oauthSystem google sha256Hex) Sound (MadeBy sha256Hex) (fun _ _ _ => True) i t
      (fun _ _ => True) (t.handler google sha256Hex) none := by
  cases t with
  | start state verifier now =>
      simp only [OauthOp.handler, googleStart]
      split
      · refine safeThen_call ?_ ?_ ?_
        · intro s notes _ _
          exact ⟨state, now, rfl, rfl, rfl⟩
        · intro s notes ok hs _ _
          cases ok with
          | true => exact hs.insert _ _
          | false => exact hs
        · intro stored
          cases stored <;> trivial
      · trivial
  | callback code state =>
      simp only [OauthOp.handler, googleCallback]
      split
      · intro s notes hs hi
        refine ⟨⟨code, state, rfl, rfl⟩, ?_⟩
        intro ok _
        cases ok with
        | false =>
            exact ⟨none, hs.forget i, trivial⟩
        | true =>
            refine ⟨_, hs.consume hi _, ?_⟩
            change SafeThen _ _ _ _ i _ _ (match (some (s.consume i (sha256Hex state)).2) with
              | none => _
              | some none => _
              | some (some verifier) => _) _
            cases (s.consume i (sha256Hex state)).2 with
            | none =>
                trivial
            | some verifier =>
                intro s' notes' hs' hi'
                obtain ⟨now, hmem⟩ := hs'.noted i _ _ hi'
                refine ⟨⟨state, rfl, i, now, hmem⟩, ?_⟩
                intro ok _
                refine ⟨none, hs'.exchange hi' code, ?_⟩
                cases ok <;> trivial
      · trivial
  | purge now =>
      refine safeThen_call (fun _ _ _ _ => trivial) ?_ (fun _ => trivial)
      intro s notes ok hs _ _
      cases ok with
      | true => exact hs.purge now
      | false => exact hs
  | wait time =>
      refine safeThen_call (fun _ _ _ _ => trivial) ?_ (fun _ => trivial)
      intro s notes ok hs _ _
      exact hs.wait time

/--
In every run, with any interleaving of starts, callbacks and purges, failing
statements, killed requests and restarts, the state of a sign-in is used once: the
callback that consumes it is given the verifier of its last issue, in time, and no
other callback is given it until it is issued again.
-/
theorem google_states_single_use (now : Int) (events : List (PoolEvent OauthOp Unit)) :
    Always (poolStep (oauthSystem google sha256Hex)) (SingleUse sha256Hex) (oauthIdle now)
      events := by
  refine always_of_inv
    (PoolInv (oauthSystem google sha256Hex) Sound (MadeBy sha256Hex) (fun _ _ _ => True)
      (fun _ _ _ _ => True) none) ?_ ?_ (poolInv_init (sound_start now)) events
  · intro p e h
    have hmeets : EventMeets (fun _ _ _ => True) (fun _ => True) (fun _ _ => True) p e := by
      cases e with
      | spawn t =>
          trivial
      | step i ok =>
          intro _ _ _
          trivial
      | crash i =>
          trivial
      | restart g =>
          trivial
    refine poolInv_step ?_ ?_ ?_ p e h hmeets
    · intro t _ i
      exact handler_safe google sha256Hex i t
    · intro i s notes hs
      exact hs.forget i
    · intro _ s notes _ hs
      exact hs.forgetAll
  · intro p h
    have hmade : ∀ i t c, nextCall p i = some (t, c) → MadeBy sha256Hex t c p.shared :=
      fun i t c hc => obligation_of_poolInv h hc
    obtain ⟨notes, hs, _⟩ := h
    refine ⟨hs.rows, hs.proper.count_consumed_le, ?_, ?_, hmade⟩
    · intro before i h v now since hlog
      obtain ⟨e, hrow, hlive⟩ := hs.proper before _ since hlog
      obtain ⟨first, later, hbefore, hquiet⟩ := awaiting_eq_some hrow
      exact ⟨e, first, later, hbefore, hlive, hquiet⟩
    · intro i v
      exact Nat.le_trans (Nat.le_add_right _ _) (hs.spent i v)

end Main

end OauthStates
end Api
end ZeroVpn
