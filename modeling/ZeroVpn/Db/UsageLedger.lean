import ZeroVpn.Db.PeerUsageCheckpoints
import ZeroVpn.Library.Machine
import Mathlib.Algebra.Ring.Int.Defs

/-!
# Runs of the usage accounting

Any sequence of `account` calls, for any devices and in any order, each of
which may fail.

* `deltas_telescope`: the deltas of one device add up to the growth of its raw
  counters between the first and the newest observation that was accounted;
* `ledger_conserved`: the device totals, the server totals and the samples grow
  by the same amounts, and nothing else is booked.
-/

namespace ZeroVpn

open Library

namespace Db
namespace PeerUsageCheckpoints

/-- One call; without the database it fails before anything is committed. -/
structure Delivery where
  observation : Observation
  available : Bool
  deriving DecidableEq, Repr

/-- The state after a call, and its outcome. -/
def deliver (db : Db) (c : Delivery) : Db × Except DbError AccountedUsage :=
  if c.available then
    match account c.observation db with
    | .ok (u, db') => (db', .ok u)
    | .error e => (db, .error e)
  else (db, .error .unavailable)

/-- The state after a call. -/
def delivered (db : Db) (c : Delivery) : Db := (deliver db c).1

theorem deliver_ok {db db' : Db} {c : Delivery} {u : AccountedUsage}
    (h : deliver db c = (db', .ok u)) : account c.observation db = .ok (u, db') := by
  unfold deliver at h
  split at h
  · split at h
    · rename_i u' db'' haccount
      cases h
      exact haccount
    · cases h
  · cases h

theorem deliver_error {db db' : Db} {c : Delivery} {e : DbError}
    (h : deliver db c = (db', .error e)) : db' = db := by
  unfold deliver at h
  split at h
  · split at h
    · cases h
    · cases h
      rfl
  · cases h
    rfl

/-- The successful calls for a device, with what they returned. -/
def accounted (d : Uuid) : Db → List Delivery → List (Observation × AccountedUsage)
  | _, [] => []
  | db, c :: cs =>
      match deliver db c with
      | (db', .ok u) =>
          if c.observation.deviceId = d then (c.observation, u) :: accounted d db' cs
          else accounted d db' cs
      | (db', .error _) => accounted d db' cs

section Telescope

variable {a : Observation} {d : Uuid} {db db' : Db} {u : AccountedUsage}

/-- A checkpoint that was written by an observation. -/
structure Records (c : Checkpoint) (o : Observation) : Prop where
  publicKey : c.publicKey = o.publicKey
  sourceGeneration : c.sourceGeneration = o.sourceGeneration
  serverRx : c.rawServerRxBytes = o.serverRx
  serverTx : c.rawServerTxBytes = o.serverTx
  sampledAt : c.sampledAt = toTimestamp o.sampledAt

theorem records_baseline (a : Observation) : Records a.baseline a :=
  ⟨rfl, rfl, rfl, rfl, rfl⟩

theorem records_successor (a : Observation) (old : Checkpoint) : Records (a.successor old) a :=
  ⟨rfl, rfl, rfl, rfl, rfl⟩

theorem booked_checkpoints (a : Observation) (db : Db) :
    (a.booked db).checkpoints = a.checkpointsIn db := by
  unfold Observation.booked
  split
  · rfl
  · rfl

/-- The checkpoint of a device after a successful call. -/
theorem checkpointOf_account (h : account a db = .ok (u, db')) :
    checkpointOf d db' =
      if a.deviceId = d then
        match checkpointOf d db with
        | none => some a.baseline
        | some old => if a.stale old then some old else some (a.successor old)
      else checkpointOf d db := by
  have htables := (account_eq_ok h).1
  have hcheckpoints : db'.checkpoints = a.checkpointsIn db := by
    rw [htables, booked_checkpoints]
  unfold checkpointOf at *
  rw [hcheckpoints]
  unfold Observation.checkpointsIn
  cases hold : checkpointOf a.deviceId db with
  | none =>
      unfold checkpointOf at hold
      by_cases hd : a.deviceId = d
      · subst hd
        simp [List.find?_append, hold, Observation.baseline]
      · simp [List.find?_append, hd, Observation.baseline]
  | some old =>
      unfold checkpointOf at hold
      dsimp only
      by_cases hstale : a.stale old = true
      · rw [if_pos hstale]
        by_cases hd : a.deviceId = d
        · subst hd
          simp [hold, hstale]
        · simp [hd]
      · rw [if_neg hstale]
        rw [find?_updateWhere_key Checkpoint.deviceId (f := a.successor) (fun _ => rfl)]
        by_cases hd : a.deviceId = d
        · subst hd
          simp [hold, hstale]
        · simp [hd]

/-- The sum of the deltas that the successful calls returned. -/
def totalRx (acc : List (Observation × AccountedUsage)) : Int :=
  (acc.map fun p => p.2.serverRxDelta).sum

def totalTx (acc : List (Observation × AccountedUsage)) : Int :=
  (acc.map fun p => p.2.serverTxDelta).sum

@[simp] theorem totalRx_cons (p : Observation × AccountedUsage)
    (acc : List (Observation × AccountedUsage)) :
    totalRx (p :: acc) = p.2.serverRxDelta + totalRx acc := by
  simp [totalRx]

@[simp] theorem totalTx_cons (p : Observation × AccountedUsage)
    (acc : List (Observation × AccountedUsage)) :
    totalTx (p :: acc) = p.2.serverTxDelta + totalTx acc := by
  simp [totalTx]

/-- The counters of one observation do not exceed those of another. -/
def Observation.Below (o o' : Observation) : Prop :=
  o.serverRx ≤ o'.serverRx ∧ o.serverTx ≤ o'.serverTx

instance (o o' : Observation) : Decidable (o.Below o') :=
  inferInstanceAs (Decidable (_ ∧ _))

theorem Observation.below_refl (o : Observation) : o.Below o := ⟨Int.le_refl _, Int.le_refl _⟩

theorem Observation.Below.trans {o o' o'' : Observation} (h : o.Below o') (h' : o'.Below o'') :
    o.Below o'' :=
  ⟨Int.le_trans h.1 h'.1, Int.le_trans h.2 h'.2⟩

/-- An observation that is late for the stored instant of another one. -/
def Observation.LateFor (o' o : Observation) : Prop :=
  o'.sampledAt ≤ ofTimestamp (toTimestamp o.sampledAt)

instance (o' o : Observation) : Decidable (o'.LateFor o) :=
  inferInstanceAs (Decidable (_ ≤ _))

/-- Observations of one source that the stored instants order as their counters
do. -/
structure Ordered (S : Observation → Prop) : Prop where
  source : ∀ o o', S o → S o' →
    o.publicKey = o'.publicKey ∧ o.sourceGeneration = o'.sourceGeneration
  handshake : ∀ o, S o → o.hasHandshake = true
  late : ∀ o o', S o → S o' → o'.LateFor o → o'.Below o
  newer : ∀ o o', S o → S o' → ¬ o'.LateFor o → o.Below o'

/-- One successful call for a device with a checkpoint.  Afterwards the
checkpoint records `o'`: the observation before if the new one is late, and the
new one otherwise. -/
theorem account_step {S : Observation → Prop} {o₀ : Observation} {old : Checkpoint}
    (hS : Ordered S) (h : account a db = .ok (u, db')) (ha : S a) (ho₀ : S o₀)
    (hold : checkpointOf a.deviceId db = some old) (hrec : Records old o₀) :
    ∃ o' new, (o' = o₀ ∨ o' = a) ∧ o₀.Below o' ∧ a.Below o' ∧
      u.serverRxDelta = o'.serverRx - o₀.serverRx ∧
      u.serverTxDelta = o'.serverTx - o₀.serverTx ∧
      checkpointOf a.deviceId db' = some new ∧ Records new o' := by
  obtain ⟨_, hdelta, _, _⟩ := account_eq_ok h
  have hnext := checkpointOf_account (d := a.deviceId) h
  rw [if_pos rfl, hold] at hnext
  have hdeltaIn : a.deltaIn db = a.delta old false := by
    simp only [Observation.deltaIn, hold]
  rw [hdeltaIn] at hdelta
  have hstale_iff : a.stale old = true ↔ a.LateFor o₀ := by
    simp [Observation.stale, Observation.LateFor, hrec.sampledAt]
  by_cases hstale : a.stale old = true
  · have hzero : a.delta old false = ⟨0, 0⟩ := by
      simp [Observation.delta, hstale]
    have hrx : u.serverRxDelta = 0 := congrArg Delta.serverRx (hdelta.trans hzero)
    have htx : u.serverTxDelta = 0 := congrArg Delta.serverTx (hdelta.trans hzero)
    have hbelow : a.Below o₀ := hS.late o₀ a ho₀ ha (hstale_iff.mp hstale)
    simp only [hstale, if_true] at hnext
    exact ⟨o₀, old, Or.inl rfl, o₀.below_refl, hbelow, by omega, by omega, hnext, hrec⟩
  · have hbelow : o₀.Below a := hS.newer o₀ a ho₀ ha (fun hlate => hstale (hstale_iff.mpr hlate))
    obtain ⟨hrx, htx⟩ := hbelow
    obtain ⟨hkey, hsource⟩ := hS.source o₀ a ho₀ ha
    have hsame : a.changedSource old = false := by
      simp [Observation.changedSource, hrec.publicKey, hrec.sourceGeneration, hkey, hsource]
    have hgrown : a.regressed old = false := by
      simp only [Observation.regressed, hrec.serverRx, hrec.serverTx, Bool.or_eq_false_iff,
        decide_eq_false_iff_not]
      omega
    have hgrowth : a.delta old false =
        ⟨a.serverRx - o₀.serverRx, a.serverTx - o₀.serverTx⟩ := by
      simp [Observation.delta, hS.handshake a ha, hstale, hsame, hgrown, hrec.serverRx,
        hrec.serverTx]
    simp only [hstale] at hnext
    exact ⟨a, a.successor old, Or.inr rfl, ⟨hrx, htx⟩, a.below_refl,
      congrArg Delta.serverRx (hdelta.trans hgrowth),
      congrArg Delta.serverTx (hdelta.trans hgrowth), hnext, records_successor a old⟩

/-- What the calls for a device with a checkpoint add up to: `o₁` is the newest
observation so far. -/
structure Telescoped (S : Observation → Prop) (o₀ o₁ : Observation)
    (acc : List (Observation × AccountedUsage)) : Prop where
  all : ∀ p ∈ acc, S p.1
  origin : o₁ = o₀ ∨ ∃ p ∈ acc, p.1 = o₁
  newest : o₀.Below o₁ ∧ ∀ p ∈ acc, p.1.Below o₁
  nonneg : ∀ p ∈ acc, 0 ≤ p.2.serverRxDelta ∧ 0 ≤ p.2.serverTxDelta
  rx : totalRx acc = o₁.serverRx - o₀.serverRx
  tx : totalTx acc = o₁.serverTx - o₀.serverTx

theorem telescoped_nil (S : Observation → Prop) (o : Observation) : Telescoped S o o [] where
  all := by simp
  origin := Or.inl rfl
  newest := ⟨o.below_refl, by simp⟩
  nonneg := by simp
  rx := by simp [totalRx]
  tx := by simp [totalTx]

/-- A call in front of the others. -/
theorem Telescoped.cons {S : Observation → Prop} {o₀ o' o₁ : Observation}
    {acc : List (Observation × AccountedUsage)} (ha : S a)
    (h : Telescoped S o' o₁ acc) (ho' : o' = o₀ ∨ o' = a)
    (hold : o₀.Below o') (hnew : a.Below o')
    (hrx : u.serverRxDelta = o'.serverRx - o₀.serverRx)
    (htx : u.serverTxDelta = o'.serverTx - o₀.serverTx) :
    Telescoped S o₀ o₁ ((a, u) :: acc) := by
  refine ⟨?_, ?_, ⟨hold.trans h.newest.1, ?_⟩, ?_, ?_, ?_⟩
  · intro p hp
    rcases List.mem_cons.mp hp with rfl | hp
    · exact ha
    · exact h.all p hp
  · rcases h.origin with rfl | ⟨p, hp, hpo⟩
    · rcases ho' with rfl | rfl
      · exact Or.inl rfl
      · exact Or.inr ⟨(o₁, u), by simp, rfl⟩
    · exact Or.inr ⟨p, List.mem_cons_of_mem _ hp, hpo⟩
  · intro p hp
    rcases List.mem_cons.mp hp with rfl | hp
    · exact hnew.trans h.newest.1
    · exact h.newest.2 p hp
  · intro p hp
    rcases List.mem_cons.mp hp with rfl | hp
    · obtain ⟨hgrowRx, hgrowTx⟩ := hold
      dsimp only
      omega
    · exact h.nonneg p hp
  · have hrest := h.rx
    simp only [totalRx_cons]
    omega
  · have hrest := h.tx
    simp only [totalTx_cons]
    omega

theorem telescoped_from {S : Observation → Prop} (hS : Ordered S) (cs : List Delivery)
    (hcs : ∀ c ∈ cs, c.observation.deviceId = d → S c.observation)
    (db : Db) (old : Checkpoint) (o₀ : Observation)
    (hold : checkpointOf d db = some old) (hrec : Records old o₀) (ho₀ : S o₀) :
    ∃ o₁, Telescoped S o₀ o₁ (accounted d db cs) := by
  induction cs generalizing db old o₀ with
  | nil =>
      exact ⟨o₀, telescoped_nil S o₀⟩
  | cons c cs ih =>
      have hrest : ∀ c' ∈ cs, c'.observation.deviceId = d → S c'.observation :=
        fun c' hc' => hcs c' (List.mem_cons_of_mem _ hc')
      rcases hdeliver : deliver db c with ⟨db', e | u⟩
      · have hsame := deliver_error hdeliver
        simp only [accounted, hdeliver]
        rw [hsame]
        exact ih hrest db old o₀ hold hrec ho₀
      · have haccount := deliver_ok hdeliver
        simp only [accounted, hdeliver]
        by_cases hd : c.observation.deviceId = d
        · have hc := hcs c (by simp) hd
          rw [if_pos hd]
          subst hd
          obtain ⟨o', new, ho', hlo, hla, hrx, htx, hnext, hrec'⟩ :=
            account_step hS haccount hc ho₀ hold hrec
          have hmem : S o' := by
            rcases ho' with rfl | rfl
            · exact ho₀
            · exact hc
          obtain ⟨o₁, h⟩ := ih hrest db' new o' hnext hrec' hmem
          exact ⟨o₁, h.cons hc ho' hlo hla hrx htx⟩
        · rw [if_neg hd]
          have hnext := checkpointOf_account (d := d) haccount
          rw [if_neg hd, hold] at hnext
          exact ih hrest db' old o₀ hnext hrec ho₀

/-- The first successful call for a device without a checkpoint counts nothing. -/
theorem account_first (h : account a db = .ok (u, db'))
    (hnew : checkpointOf a.deviceId db = none) :
    u.serverRxDelta = 0 ∧ u.serverTxDelta = 0 ∧
      checkpointOf a.deviceId db' = some a.baseline := by
  obtain ⟨_, hdelta, _, _⟩ := account_eq_ok h
  have hzero : a.deltaIn db = ⟨0, 0⟩ := by
    simp only [Observation.deltaIn, hnew]
  have hnext := checkpointOf_account (d := a.deviceId) h
  rw [if_pos rfl, hnew] at hnext
  exact ⟨congrArg Delta.serverRx (hdelta.trans hzero),
    congrArg Delta.serverTx (hdelta.trans hzero), hnext⟩

/-- The calls for a device without a checkpoint: the first successful one is the
baseline of the others. -/
theorem telescoped_start {S : Observation → Prop} (hS : Ordered S) (cs : List Delivery)
    (hcs : ∀ c ∈ cs, c.observation.deviceId = d → S c.observation)
    (db : Db) (hnew : checkpointOf d db = none) :
    accounted d db cs = [] ∨
      ∃ first rest o₁, accounted d db cs = first :: rest ∧ S first.1 ∧
        Telescoped S first.1 o₁ (first :: rest) := by
  induction cs generalizing db with
  | nil =>
      exact Or.inl rfl
  | cons c cs ih =>
      have hrest : ∀ c' ∈ cs, c'.observation.deviceId = d → S c'.observation :=
        fun c' hc' => hcs c' (List.mem_cons_of_mem _ hc')
      rcases hdeliver : deliver db c with ⟨db', e | u⟩
      · have hsame := deliver_error hdeliver
        simp only [accounted, hdeliver]
        rw [hsame]
        exact ih hrest db hnew
      · have haccount := deliver_ok hdeliver
        simp only [accounted, hdeliver]
        by_cases hd : c.observation.deviceId = d
        · right
          have hc := hcs c (by simp) hd
          rw [if_pos hd]
          subst hd
          obtain ⟨hrx, htx, hnext⟩ := account_first haccount hnew
          obtain ⟨o₁, h⟩ := telescoped_from hS cs hrest db' _ c.observation hnext
            (records_baseline c.observation) hc
          refine ⟨_, _, o₁, rfl, hc, ?_⟩
          exact h.cons hc (Or.inl rfl) (Observation.below_refl _) (Observation.below_refl _)
            (by rw [hrx, Int.sub_self]) (by rw [htx, Int.sub_self])
        · rw [if_neg hd]
          have hnext := checkpointOf_account (d := d) haccount
          rw [if_neg hd, hnew] at hnext
          exact ih hrest db' hnext

/-- Two observations that fall into one stored microsecond have the same
counters, unless the earlier one lies exactly on that microsecond and the later
one after it. -/
def ToldApart (o o' : Observation) : Prop :=
  toTimestamp o.sampledAt = toTimestamp o'.sampledAt → o.sampledAt < o'.sampledAt →
    (o.serverRx = o'.serverRx ∧ o.serverTx = o'.serverTx) ∨
      (o.LateFor o ∧ ¬ o'.LateFor o)

instance (o o' : Observation) : Decidable (ToldApart o o') :=
  inferInstanceAs (Decidable (_ → _ → _))

/-- Counters that grow with the instant and observations that can be told apart
are ordered by the stored instants. -/
theorem ordered_of_monotone {S : Observation → Prop}
    (hsource : ∀ o o', S o → S o' →
      o.publicKey = o'.publicKey ∧ o.sourceGeneration = o'.sourceGeneration)
    (hhandshake : ∀ o, S o → o.hasHandshake = true)
    (hmono : ∀ o o', S o → S o' → o.sampledAt ≤ o'.sampledAt → o.Below o')
    (hapart : ∀ o o', S o → S o' → ToldApart o o') : Ordered S := by
  refine ⟨hsource, hhandshake, ?_, ?_⟩
  · intro o o' ho ho' hlate
    by_cases hle : o'.sampledAt ≤ o.sampledAt
    · exact hmono o' o ho' ho hle
    · have hlt : o.sampledAt < o'.sampledAt := Int.lt_of_not_ge hle
      have hstored : toTimestamp o.sampledAt = toTimestamp o'.sampledAt := by
        have hup := toTimestamp_mono (Int.le_of_lt hlt)
        have hdown := toTimestamp_mono hlate
        rw [toTimestamp_ofTimestamp] at hdown
        omega
      rcases hapart o o' ho ho' hstored hlt with ⟨hrx, htx⟩ | ⟨_, hnot⟩
      · exact ⟨by omega, by omega⟩
      · exact absurd hlate hnot
  · intro o o' ho ho' hnewer
    by_cases hle : o.sampledAt ≤ o'.sampledAt
    · exact hmono o o' ho ho' hle
    · have hlt : o'.sampledAt < o.sampledAt := Int.lt_of_not_ge hle
      have hstored : toTimestamp o'.sampledAt = toTimestamp o.sampledAt := by
        have hup := toTimestamp_mono (Int.le_of_lt hlt)
        have hdown : toTimestamp (ofTimestamp (toTimestamp o.sampledAt)) ≤
            toTimestamp o'.sampledAt :=
          toTimestamp_mono (Int.le_of_lt (Int.lt_of_not_ge hnewer))
        rw [toTimestamp_ofTimestamp] at hdown
        omega
      rcases hapart o' o ho' ho hstored hlt with ⟨hrx, htx⟩ | ⟨hlate, _⟩
      · exact ⟨by omega, by omega⟩
      · unfold Observation.LateFor at hlate hnewer
        rw [hstored] at hlate
        exact absurd hlate hnewer

/--
For a device without a checkpoint, observed under one key and one source with
counters that do not decrease with the instant, and with observations that the
stored instants tell apart: whatever calls are made (also for other devices), in
whatever order, repeated, lost or failing, no delta is negative, and the deltas of
the successful calls add up to the growth of the raw counters from the first
accounted observation to the newest one.
-/
theorem deltas_telescope (d : Uuid) (key generation : String) (db : Db) (cs : List Delivery)
    (hnew : checkpointOf d db = none)
    (hsource : ∀ c ∈ cs, c.observation.deviceId = d →
      c.observation.publicKey = key ∧ c.observation.sourceGeneration = generation ∧
        c.observation.hasHandshake = true)
    (hcounters : ∀ c ∈ cs, ∀ c' ∈ cs, c.observation.deviceId = d → c'.observation.deviceId = d →
      c.observation.sampledAt ≤ c'.observation.sampledAt →
      c.observation.serverRx ≤ c'.observation.serverRx ∧
        c.observation.serverTx ≤ c'.observation.serverTx)
    (hapart : ∀ c ∈ cs, ∀ c' ∈ cs, c.observation.deviceId = d → c'.observation.deviceId = d →
      ToldApart c.observation c'.observation) :
    (∀ p ∈ accounted d db cs, 0 ≤ p.2.serverRxDelta ∧ 0 ≤ p.2.serverTxDelta) ∧
      ∀ first rest, accounted d db cs = first :: rest →
        ∀ latest ∈ accounted d db cs,
          (∀ p ∈ accounted d db cs, p.1.sampledAt ≤ latest.1.sampledAt) →
          totalRx (accounted d db cs) = latest.1.serverRx - first.1.serverRx ∧
            totalTx (accounted d db cs) = latest.1.serverTx - first.1.serverTx := by
  let S : Observation → Prop := fun o => o.deviceId = d ∧ ∃ c ∈ cs, c.observation = o
  have hmono : ∀ o o', S o → S o' → o.sampledAt ≤ o'.sampledAt → o.Below o' := by
    rintro _ _ ⟨hd, c, hc, rfl⟩ ⟨hd', c', hc', rfl⟩ hle
    exact hcounters c hc c' hc' hd hd' hle
  have hS : Ordered S := by
    refine ordered_of_monotone ?_ ?_ hmono ?_
    · rintro _ _ ⟨hd, c, hc, rfl⟩ ⟨hd', c', hc', rfl⟩
      obtain ⟨hkey, hgen, _⟩ := hsource c hc hd
      obtain ⟨hkey', hgen', _⟩ := hsource c' hc' hd'
      exact ⟨hkey.trans hkey'.symm, hgen.trans hgen'.symm⟩
    · rintro _ ⟨hd, c, hc, rfl⟩
      exact (hsource c hc hd).2.2
    · rintro _ _ ⟨hd, c, hc, rfl⟩ ⟨hd', c', hc', rfl⟩
      exact hapart c hc c' hc' hd hd'
  have hcs : ∀ c ∈ cs, c.observation.deviceId = d → S c.observation :=
    fun c hc hd => ⟨hd, c, hc, rfl⟩
  rcases telescoped_start hS cs hcs db hnew with hnil | ⟨first, rest, o₁, hacc, hfirst, h⟩
  · rw [hnil]
    refine ⟨by simp, ?_⟩
    intro first rest heq
    cases heq
  · rw [hacc]
    refine ⟨h.nonneg, ?_⟩
    intro first' rest' heq latest hlatest hmax
    cases heq
    -- the newest observation and the latest one have the same counters
    obtain ⟨hrx, htx⟩ := h.newest.2 latest hlatest
    obtain ⟨hrx', htx'⟩ : o₁.Below latest.1 := by
      rcases h.origin with rfl | ⟨p, hp, rfl⟩
      · exact hmono _ _ hfirst (h.all latest hlatest) (hmax first (by simp))
      · exact hmono _ _ (h.all p hp) (h.all latest hlatest) (hmax p hp)
    have hsumRx := h.rx
    have hsumTx := h.tx
    exact ⟨by omega, by omega⟩

end Telescope

section Sample

/-- One user with one device on one server. -/
def ledgerTables : Tables where
  users :=
    [ { id := 2, email := .address "user@vpn.test", role := .user, status := .active
        deletedAt := none, deviceLimit := 5, monthlyByteCap := none
        currentMonthBytes := 0, quotaResetsAt := none } ]
  servers :=
    [ { id := 10, name := "main", publicKey := "server", isActive := true
        privateKeyEncrypted := none, cidr := .v4 ⟨0x0A000000#32, 22, Wg.Network.slash22⟩
        persistentKeepalive := 25, createdAt := 0 } ]
  devices :=
    [ { id := 20, userId := 2, serverId := 10, name := "laptop", publicKey := "key"
        presharedKeyEncrypted := none, allocatedIp := .v4 0x0A000002#32
        status := .active, privateKeyEncrypted := none, monthlyByteCap := none
        currentMonthBytes := 0, quotaResetsAt := none, autoPaused := false
        lifetimeRxBytes := 0, lifetimeTxBytes := 0 } ]
  checkpoints := []
  serverUsage := []
  samples := []

def ledgerDb : Db where
  toTables := ledgerTables
  valid := by decide

/-- An observation some nanoseconds after 2026-06-01, with equal counters. -/
def sampleObservation (nanos counter : Int) : Observation where
  deviceId := 20
  userId := 2
  serverId := 10
  publicKey := "key"
  sourceGeneration := "wg0"
  serverRx := counter
  serverTx := counter
  sampledAt := 1780272000 * 1000000000 + nanos
  hasHandshake := true

/-- A late, a repeated and a failed call. -/
def sampleDeliveries : List Delivery :=
  [⟨sampleObservation 5000000000 100, true⟩, ⟨sampleObservation 15000000000 300, true⟩,
    ⟨sampleObservation 10000000000 150, true⟩, ⟨sampleObservation 15000000000 300, true⟩,
    ⟨sampleObservation 20000000000 450, false⟩]

/-- The deltas of such a run are those between 100 and 300. -/
theorem deltas_telescope_sample : totalRx (accounted 20 ledgerDb sampleDeliveries) = 200 := by
  have hacc : accounted 20 ledgerDb sampleDeliveries ≠ [] := by
    decide
  obtain ⟨first, rest, heq⟩ := List.exists_cons_of_ne_nil hacc
  have hfirst : first.1 = sampleObservation 5000000000 100 := by
    have hhead : (accounted 20 ledgerDb sampleDeliveries).head?.map Prod.fst =
        some (sampleObservation 5000000000 100) := by
      decide
    rw [heq] at hhead
    simpa using hhead
  have hlatest : ∃ p ∈ accounted 20 ledgerDb sampleDeliveries,
      p.1 = sampleObservation 15000000000 300 ∧
        ∀ q ∈ accounted 20 ledgerDb sampleDeliveries, q.1.sampledAt ≤ p.1.sampledAt := by
    decide
  obtain ⟨latest, hmem, hlast, hmax⟩ := hlatest
  have hsum := (deltas_telescope 20 "key" "wg0" ledgerDb sampleDeliveries (by decide)
    (by decide) (by decide) (by decide)).2 first rest heq latest hmem hmax
  rw [hsum.1, hlast, hfirst]
  rfl

/-- Two observations of one microsecond, the newer one first: the counters do
not decrease with the instant, but the older observation is taken for a counter
reset and billed in full. -/
theorem same_microsecond_is_billed_again :
    checkpointOf 20 ledgerDb = none ∧
      (∀ c ∈ [sampleObservation 200 100, sampleObservation 800 200],
        ∀ c' ∈ [sampleObservation 200 100, sampleObservation 800 200],
          c.sampledAt ≤ c'.sampledAt → c.serverRx ≤ c'.serverRx ∧ c.serverTx ≤ c'.serverTx) ∧
      (accounted 20 ledgerDb
          [⟨sampleObservation 800 200, true⟩, ⟨sampleObservation 200 100, true⟩]).map Prod.fst =
        [sampleObservation 800 200, sampleObservation 200 100] ∧
      totalRx (accounted 20 ledgerDb
          [⟨sampleObservation 800 200, true⟩, ⟨sampleObservation 200 100, true⟩]) = 100 ∧
      (100 : Int) ≠
        (sampleObservation 800 200).serverRx - (sampleObservation 800 200).serverRx := by
  decide

end Sample

section Conservation

variable {a : Observation} {db db' : Db} {u : AccountedUsage}

/-- The lifetime counters of a device, as the device sees them. -/
def lifetime (d : Uuid) (db : Db) : Int × Int :=
  (columnSum (fun r => r.id == d) Device.lifetimeRxBytes db.devices,
    columnSum (fun r => r.id == d) Device.lifetimeTxBytes db.devices)

/-- The sum of the samples of a device. -/
def sampled (d : Uuid) (db : Db) : Int × Int :=
  (columnSum (fun b => b.deviceId == d) Sample.rxBytes db.samples,
    columnSum (fun b => b.deviceId == d) Sample.txBytes db.samples)

/-- The sample of a device at an instant. -/
def sampleAt (d : Uuid) (at_ : Int) (db : Db) : Int × Int :=
  (columnSum (fun b => b.deviceId == d && b.sampledAt == at_) Sample.rxBytes db.samples,
    columnSum (fun b => b.deviceId == d && b.sampledAt == at_) Sample.txBytes db.samples)

/-- The lifetime counters of the devices of a server. -/
def serverLifetime (v : Uuid) (db : Db) : Int × Int :=
  (columnSum (fun r => r.serverId == v) Device.lifetimeRxBytes db.devices,
    columnSum (fun r => r.serverId == v) Device.lifetimeTxBytes db.devices)

/-- What a successful call books, and on which rows. -/
structure Booked (a : Observation) (u : AccountedUsage) (db db' : Db) : Prop where
  /-- One device row changes, in its lifetime counters and its monthly window. -/
  device : ∃ d d', d ∈ db.devices ∧ d.id = a.deviceId ∧
    d' = { d with
      lifetimeRxBytes := d.lifetimeRxBytes + u.serverTxDelta
      lifetimeTxBytes := d.lifetimeTxBytes + u.serverRxDelta
      currentMonthBytes := d'.currentMonthBytes
      quotaResetsAt := d'.quotaResetsAt } ∧
    db'.devices = updateWhere (fun r => r.id == a.deviceId) (fun _ => d') db.devices
  /-- One server total grows. -/
  server : ∀ v, serverTotals v db' =
    serverTotals v db +
      if v = a.serverId then (u.serverRxDelta, u.serverTxDelta) else (0, 0)
  /-- One sample grows. -/
  sample : ∀ d at_, sampleAt d at_ db' =
    sampleAt d at_ db +
      if d = a.deviceId ∧ at_ = toTimestamp a.sampledAt then
        (u.serverTxDelta, u.serverRxDelta) else (0, 0)
  /-- At most the monthly window of one user changes. -/
  user : ∃ g : User → User,
    (∀ w, g w = { w with
      currentMonthBytes := (g w).currentMonthBytes
      quotaResetsAt := (g w).quotaResetsAt }) ∧
    db'.users = updateWhere (Users.present a.userId) g db.users
  /-- At most the checkpoint of the device changes. -/
  checkpoint : ∀ d, d ≠ a.deviceId → checkpointOf d db' = checkpointOf d db
  servers : db'.servers = db.servers

theorem serverTotals_eq (v : Uuid) (db : Db) :
    serverTotals v db =
      (columnSum (fun r => r.serverId == v) ServerUsage.totalServerRxBytes db.serverUsage,
        columnSum (fun r => r.serverId == v) ServerUsage.totalServerTxBytes db.serverUsage) := by
  rw [columnSum_key db.valid.serverUsage_server, columnSum_key db.valid.serverUsage_server]
  unfold serverTotals
  cases db.serverUsage.find? fun r => r.serverId == v with
  | none =>
      rfl
  | some r =>
      rfl

/-- No delta is negative. -/
theorem deltaIn_nonneg (hrx : 0 ≤ a.serverRx) (htx : 0 ≤ a.serverTx) (db : Db) :
    0 ≤ (a.deltaIn db).serverRx ∧ 0 ≤ (a.deltaIn db).serverTx := by
  unfold Observation.deltaIn
  split
  · exact ⟨Int.le_refl 0, Int.le_refl 0⟩
  · rename_i old _
    unfold Observation.delta
    split
    · exact ⟨Int.le_refl 0, Int.le_refl 0⟩
    · split
      · exact ⟨hrx, htx⟩
      · rename_i hcount
        simp only [Bool.or_eq_true, not_or, Bool.not_eq_true] at hcount
        have hgrown := hcount.2
        simp only [Observation.regressed, Bool.or_eq_false_iff, decide_eq_false_iff_not,
          Int.not_lt] at hgrown
        dsimp only
        omega

/-- A delta that books no traffic is zero. -/
theorem delta_eq_zero {x : Delta} (hrx : 0 ≤ x.serverRx) (htx : 0 ≤ x.serverTx)
    (hcombined : ¬ 0 < x.combined) : x.serverRx = 0 ∧ x.serverTx = 0 := by
  unfold Delta.combined at hcombined
  omega

/-- The devices after a call. -/
theorem booked_devices (a : Observation) (db : Db) :
    (a.booked db).devices =
      updateWhere (fun d => d.id == a.deviceId) (bookedDevice a (a.deltaIn db)) db.devices := by
  unfold Observation.booked
  split
  · rfl
  · rfl

/-- A column sum over the devices after a call. -/
theorem devices_columnSum {q : Device → Bool} {col : Device → Int} {x : Int}
    (h : account a db = .ok (u, db'))
    (hq : ∀ d, q (bookedDevice a (a.deltaIn db) d) = q d)
    (hcol : ∀ d, col (bookedDevice a (a.deltaIn db) d) = col d + x)
    {d : Device} (hd : d ∈ db.devices) (hid : d.id = a.deviceId) :
    columnSum q col db'.devices = columnSum q col db.devices + if q d then x else 0 := by
  obtain ⟨htables, _, _, _⟩ := account_eq_ok h
  have hdevices : db'.devices =
      updateWhere (fun d => d.id == a.deviceId) (bookedDevice a (a.deltaIn db)) db.devices := by
    rw [htables, booked_devices]
  rw [hdevices]
  refine columnSum_updateWhere (List.Nodup.of_map _ db.valid.devices_id) hd ?_ (hq d) (hcol d)
  intro e he
  simp only [beq_iff_eq]
  constructor
  · intro heid
    exact db.deviceId_unique he hd (heid.trans hid.symm)
  · rintro rfl
    exact hid

/-- A column sum over the server totals after a call. -/
theorem serverUsage_columnSum {col : ServerUsage → Int} {x : Int} (v : Uuid)
    (h : account a db = .ok (u, db'))
    (hnew : col (firstUsage a (a.deltaIn db)) = x)
    (hcol : ∀ r, col (addUsage (a.deltaIn db) r) = col r + x)
    (hzero : (a.deltaIn db).serverRx = 0 ∧ (a.deltaIn db).serverTx = 0 → x = 0) :
    columnSum (fun r => r.serverId == v) col db'.serverUsage =
      columnSum (fun r => r.serverId == v) col db.serverUsage +
        if a.serverId = v then x else 0 := by
  obtain ⟨htables, _, ⟨hrx, htx⟩, _⟩ := account_eq_ok h
  obtain ⟨hdrx, hdtx⟩ := deltaIn_nonneg hrx htx db
  rw [htables]
  unfold Observation.booked
  by_cases hpos : 0 < (a.deltaIn db).combined
  · rw [if_pos hpos]
    have hsum : columnSum (fun r => r.serverId == v) col
        (upsertRow (fun r => r.serverId == a.serverId) (firstUsage a (a.deltaIn db))
          (addUsage (a.deltaIn db)) db.serverUsage) =
        columnSum (fun r => r.serverId == v) col db.serverUsage +
          if (firstUsage a (a.deltaIn db)).serverId == v then
            col (firstUsage a (a.deltaIn db)) else 0 := by
      refine columnSum_upsertRow (List.Nodup.of_map _ db.valid.serverUsage_server) ?_ ?_ ?_
      · intro r hr r' hr' hp hp'
        exact row_unique db.valid.serverUsage_server hr hr'
          ((eq_of_beq hp).trans (eq_of_beq hp').symm)
      · intro r _ hp
        refine ⟨rfl, ?_⟩
        rw [eq_of_beq hp]
        rfl
      · intro r _ _
        rw [hcol, hnew]
    rw [hnew] at hsum
    simpa [bookedTraffic, firstUsage] using hsum
  · have hx := hzero (delta_eq_zero hdrx hdtx hpos)
    rw [if_neg hpos, hx]
    simp

/-- A column sum over the samples after a call. -/
theorem samples_columnSum {q : Sample → Bool} (col : Sample → Int) {x : Int}
    (h : account a db = .ok (u, db'))
    (hq : ∀ b b' : Sample, b.deviceId = b'.deviceId → b.sampledAt = b'.sampledAt → q b = q b')
    (hnew : col (firstSample a (a.deltaIn db)) = x)
    (hcol : ∀ b, col (addSample (a.deltaIn db) b) = col b + x)
    (hzero : (a.deltaIn db).serverRx = 0 ∧ (a.deltaIn db).serverTx = 0 → x = 0) :
    columnSum q col db'.samples =
      columnSum q col db.samples + if q (firstSample a (a.deltaIn db)) then x else 0 := by
  obtain ⟨htables, _, ⟨hrx, htx⟩, _⟩ := account_eq_ok h
  obtain ⟨hdrx, hdtx⟩ := deltaIn_nonneg hrx htx db
  rw [htables]
  unfold Observation.booked
  by_cases hpos : 0 < (a.deltaIn db).combined
  · rw [if_pos hpos]
    have hat : ∀ b : Sample, atSample a b = true →
        b.deviceId = a.deviceId ∧ b.sampledAt = toTimestamp a.sampledAt := by
      intro b hb
      unfold atSample at hb
      rw [Bool.and_eq_true] at hb
      exact ⟨eq_of_beq hb.1, eq_of_beq hb.2⟩
    have hsum : columnSum q col (upsertRow (atSample a) (firstSample a (a.deltaIn db))
          (addSample (a.deltaIn db)) db.samples) =
        columnSum q col db.samples +
          if q (firstSample a (a.deltaIn db)) then col (firstSample a (a.deltaIn db)) else 0 := by
      refine columnSum_upsertRow (List.Nodup.of_map _ db.valid.samples_key) ?_ ?_ ?_
      · intro b hb b' hb' hp hp'
        obtain ⟨hd, ht⟩ := hat b hp
        obtain ⟨hd', ht'⟩ := hat b' hp'
        refine row_unique db.valid.samples_key hb hb' ?_
        rw [hd, ht, hd', ht']
      · intro b _ hp
        obtain ⟨hd, ht⟩ := hat b hp
        exact ⟨hq _ _ rfl rfl, hq _ _ hd.symm ht.symm⟩
      · intro b _ _
        rw [hcol, hnew]
    rw [hnew] at hsum
    exact hsum
  · have hx := hzero (delta_eq_zero hdrx hdtx hpos)
    rw [if_neg hpos, hx]
    simp

/-- The user table after a call. -/
theorem booked_users (a : Observation) (db : Db) :
    (a.booked db).users =
      updateWhere (Users.present a.userId)
        (if 0 < (a.deltaIn db).combined then bookedUser a (a.deltaIn db) else id) db.users := by
  unfold Observation.booked
  split
  · rfl
  · exact (updateWhere_self fun _ _ _ => rfl).symm

theorem booked_servers (a : Observation) (db : Db) : (a.booked db).servers = db.servers := by
  unfold Observation.booked
  split
  · rfl
  · rfl

/-- A successful call books its deltas and nothing else. -/
theorem booked_of_account (h : account a db = .ok (u, db')) : Booked a u db db' := by
  obtain ⟨htables, hdelta, _, d, hd, hid⟩ := account_eq_ok h
  have hrx : u.serverRxDelta = (a.deltaIn db).serverRx := congrArg Delta.serverRx hdelta
  have htx : u.serverTxDelta = (a.deltaIn db).serverTx := congrArg Delta.serverTx hdelta
  constructor
  case device =>
    refine ⟨d, bookedDevice a (a.deltaIn db) d, hd, hid, ?_, ?_⟩
    · rw [hrx, htx]
      rfl
    · rw [htables, booked_devices]
      unfold updateWhere
      refine List.map_congr_left ?_
      intro r hr
      by_cases hkey : r.id = a.deviceId
      · rw [db.deviceId_unique hr hd (hkey.trans hid.symm)]
      · rw [if_neg (by simpa using hkey), if_neg (by simpa using hkey)]
  case server =>
    intro v
    rw [serverTotals_eq, serverTotals_eq,
      serverUsage_columnSum v h rfl (fun _ => rfl) And.left,
      serverUsage_columnSum v h rfl (fun _ => rfl) And.right, hrx, htx]
    by_cases hv : a.serverId = v
    · simp [hv, firstUsage]
    · simp [hv, Ne.symm hv]
  case sample =>
    intro e at_
    unfold sampleAt
    have hq : ∀ b b' : Sample, b.deviceId = b'.deviceId → b.sampledAt = b'.sampledAt →
        (b.deviceId == e && b.sampledAt == at_) = (b'.deviceId == e && b'.sampledAt == at_) := by
      intro b b' hd ht
      rw [hd, ht]
    rw [samples_columnSum _ h hq rfl (fun _ => rfl) And.right,
      samples_columnSum _ h hq rfl (fun _ => rfl) And.left, hrx, htx]
    by_cases hkey : e = a.deviceId ∧ at_ = toTimestamp a.sampledAt
    · obtain ⟨rfl, rfl⟩ := hkey
      simp [firstSample]
    · have hkey' : ¬(a.deviceId = e ∧ toTimestamp a.sampledAt = at_) := by
        rintro ⟨rfl, rfl⟩
        exact hkey ⟨rfl, rfl⟩
      simp [firstSample, hkey, hkey']
  case user =>
    refine ⟨_, ?_, by rw [htables, booked_users]⟩
    intro w
    split
    · rfl
    · rfl
  case checkpoint =>
    intro e he
    rw [checkpointOf_account h, if_neg (Ne.symm he)]
  case servers =>
    rw [htables, booked_servers]

/-- The lifetime counters of a group of devices after a call. -/
theorem devices_growth {q : Device → Bool} (h : account a db = .ok (u, db'))
    (hq : ∀ e, q (bookedDevice a (a.deltaIn db) e) = q e)
    {d : Device} (hd : d ∈ db.devices) (hid : d.id = a.deviceId) :
    columnSum q Device.lifetimeRxBytes db'.devices =
        columnSum q Device.lifetimeRxBytes db.devices + (if q d then u.serverTxDelta else 0) ∧
      columnSum q Device.lifetimeTxBytes db'.devices =
        columnSum q Device.lifetimeTxBytes db.devices + (if q d then u.serverRxDelta else 0) := by
  obtain ⟨_, hdelta, _⟩ := account_eq_ok h
  have hrx : u.serverRxDelta = (a.deltaIn db).serverRx := congrArg Delta.serverRx hdelta
  have htx : u.serverTxDelta = (a.deltaIn db).serverTx := congrArg Delta.serverTx hdelta
  rw [hrx, htx]
  exact ⟨devices_columnSum h hq (fun _ => rfl) hd hid,
    devices_columnSum h hq (fun _ => rfl) hd hid⟩

/-- How much a pair of counters grew between two states. -/
def growth (f : Db → Int × Int) (db db' : Db) : Int × Int :=
  ((f db').1 - (f db).1, (f db').2 - (f db).2)

/-- A failed call changes nothing, a successful one books its deltas. -/
def BooksOnly (db : Db) (c : Delivery) : Prop :=
  (∀ e, (deliver db c).2 = .error e → delivered db c = db) ∧
    ∀ u, (deliver db c).2 = .ok u → Booked c.observation u db (delivered db c)

/-- A call names the server of its device. -/
def OwnServer (db : Db) (c : Delivery) : Prop :=
  ∀ d ∈ db.devices, d.id = c.observation.deviceId → d.serverId = c.observation.serverId

instance (db : Db) (c : Delivery) : Decidable (OwnServer db c) :=
  inferInstanceAs (Decidable (∀ d ∈ db.devices, _ → _))

theorem delivered_cases (db : Db) (c : Delivery) :
    (∃ e, (deliver db c).2 = .error e ∧ delivered db c = db) ∨
      ∃ u, (deliver db c).2 = .ok u ∧ account c.observation db = .ok (u, delivered db c) := by
  unfold delivered
  rcases h : deliver db c with ⟨db', e | u⟩
  · exact Or.inl ⟨e, rfl, deliver_error h⟩
  · exact Or.inr ⟨u, rfl, deliver_ok h⟩

theorem booksOnly (db : Db) (c : Delivery) : BooksOnly db c := by
  rcases delivered_cases db c with ⟨e, herror, hsame⟩ | ⟨u, hok, haccount⟩
  · refine ⟨fun _ _ => hsame, ?_⟩
    intro u hok
    rw [herror] at hok
    cases hok
  · refine ⟨?_, ?_⟩
    · intro e herror
      rw [hok] at herror
      cases herror
    · intro u' hok'
      rw [hok] at hok'
      cases hok'
      exact booked_of_account haccount

/-- One call: the lifetime counters of a device grow with its samples. -/
theorem delivered_device (d : Uuid) (db : Db) (c : Delivery) :
    growth (lifetime d) db (delivered db c) = growth (sampled d) db (delivered db c) := by
  rcases delivered_cases db c with ⟨_, _, hsame⟩ | ⟨u, _, haccount⟩
  · rw [hsame]
    simp [growth]
  · obtain ⟨_, hdelta, _, e, he, hid⟩ := account_eq_ok haccount
    have hrx := congrArg Delta.serverRx hdelta
    have htx := congrArg Delta.serverTx hdelta
    have hdevices := devices_growth (q := fun r => r.id == d) haccount (fun _ => rfl) he hid
    have hq : ∀ b b' : Sample, b.deviceId = b'.deviceId → b.sampledAt = b'.sampledAt →
        (b.deviceId == d) = (b'.deviceId == d) := by
      intro b b' hd _
      rw [hd]
    have hsrx := samples_columnSum Sample.rxBytes haccount hq rfl (fun _ => rfl) And.right
    have hstx := samples_columnSum Sample.txBytes haccount hq rfl (fun _ => rfl) And.left
    simp only [growth, lifetime, sampled, hdevices.1, hdevices.2, hsrx, hstx, hid, firstSample]
    simp only [← hrx, ← htx, add_sub_cancel_left]

/-- One call: the totals of a server grow with the lifetime counters of its devices. -/
theorem delivered_server (v : Uuid) {db : Db} {c : Delivery} (hown : OwnServer db c) :
    growth (serverTotals v) db (delivered db c) =
      (growth (serverLifetime v) db (delivered db c)).swap := by
  rcases delivered_cases db c with ⟨_, _, hsame⟩ | ⟨u, _, haccount⟩
  · rw [hsame]
    simp [growth]
  · obtain ⟨_, _, _, e, he, hid⟩ := account_eq_ok haccount
    have hdevices := devices_growth (q := fun r => r.serverId == v) haccount (fun _ => rfl) he hid
    have htotals := (booked_of_account haccount).server v
    have hserver := hown e he hid
    by_cases hv : v = c.observation.serverId
    · subst hv
      simp [growth, serverLifetime, htotals, hdevices.1, hdevices.2, hserver]
    · have hne : (c.observation.serverId == v) = false := by
        simpa using Ne.symm hv
      simp only [growth, serverLifetime, htotals, hdevices.1, hdevices.2, hserver, hv, hne]
      simp

theorem growth_trans (f : Db → Int × Int) (db₁ db₂ db₃ : Db) :
    growth f db₁ db₃ = growth f db₁ db₂ + growth f db₂ db₃ := by
  simp only [growth, Prod.mk_add_mk, Prod.mk.injEq]
  constructor
  · omega
  · omega

/--
Every run of calls keeps the books: a failed call changes nothing, a successful
one books its deltas, the lifetime counters of every device grow with its
samples, and the totals of every server with the lifetime counters of its
devices, if the calls name the servers of their devices.
-/
theorem ledger_conserved (db : Db) (cs : List Delivery) :
    Along delivered BooksOnly db cs ∧
      (∀ d, growth (lifetime d) db (runEvents delivered db cs) =
        growth (sampled d) db (runEvents delivered db cs)) ∧
      (Along delivered OwnServer db cs → ∀ v,
        growth (serverTotals v) db (runEvents delivered db cs) =
          (growth (serverLifetime v) db (runEvents delivered db cs)).swap) := by
  refine ⟨along_of_forall booksOnly db cs, ?_, ?_⟩
  · intro d
    induction cs generalizing db with
    | nil =>
        simp [growth]
    | cons c cs ih =>
        rw [runEvents_cons, growth_trans _ db (delivered db c), ih,
          growth_trans (sampled d) db (delivered db c), delivered_device]
  · intro hown v
    induction cs generalizing db with
    | nil =>
        simp [growth]
    | cons c cs ih =>
        rw [runEvents_cons, growth_trans _ db (delivered db c), ih _ hown.2,
          growth_trans (serverLifetime v) db (delivered db c), delivered_server v hown.1]
        rfl

/-- The run of the deliveries above books 200 bytes everywhere. -/
theorem ledger_conserved_sample :
    growth (serverTotals 10) ledgerDb (runEvents delivered ledgerDb sampleDeliveries) =
      (200, 200) := by
  rw [(ledger_conserved ledgerDb sampleDeliveries).2.2 (by decide) 10]
  decide

/-- The same tables with a second server. -/
def twoServersDb : Db where
  toTables :=
    { ledgerTables with
      servers := ledgerTables.servers ++
        [ { id := 11, name := "spare", publicKey := "spare", isActive := false
            privateKeyEncrypted := none, cidr := .v4 ⟨0x0A010000#32, 22, Wg.Network.slash22⟩
            persistentKeepalive := 25, createdAt := 0 } ] }
  valid := by decide

/-- Two calls, the second one under the server that the device is not on. -/
def straySample : List Delivery :=
  [⟨sampleObservation 0 100, true⟩,
    ⟨{ sampleObservation 5000000000 300 with serverId := 11 }, true⟩]

/-- A call also writes the checkpoint and the monthly windows, and a call under
another server moves the totals of a server none of whose devices grew. -/
theorem account_books_windows_and_named_server :
    (runEvents delivered twoServersDb straySample).checkpoints ≠ twoServersDb.checkpoints ∧
      (runEvents delivered twoServersDb straySample).users.map User.currentMonthBytes = [400] ∧
      (runEvents delivered twoServersDb straySample).devices.map Device.currentMonthBytes = [400] ∧
      growth (serverTotals 11) twoServersDb (runEvents delivered twoServersDb straySample) =
        (200, 200) ∧
      growth (serverLifetime 11) twoServersDb (runEvents delivered twoServersDb straySample) =
        (0, 0) := by
  decide

end Conservation

end PeerUsageCheckpoints
end Db
end ZeroVpn
