import ZeroVpn.Api.MonthlyCycle

/-!
# The usage of the month

`usage` of `routes/me.rs` shows the growth of the lifetime totals of the user's
devices since a snapshot, the baseline.  The snapshot is taken at the first view
of a month and counts the devices that are not revoked.  So the bytes of the
month before its first view are missing, and a device that is revoked takes its
whole lifetime total out of the figure.

The state keeps two figures that the program does not have: `early`, the bytes of
the month that the snapshot already contained, and `lost`, what has left the
total since.  The figure that is shown is the bytes of the month less the two, and
at least 0 (`UsageInv.figure`).
-/

namespace ZeroVpn

open Library

namespace Api
namespace MonthlyUsage

open Db (Uuid Device User DbError inI64 toTimestamp ofTimestamp firstOfMonth firstOfNextMonth
  monthOf)
open Db.PeerUsageCheckpoints (Delivery deliver delivered)

structure UsageState where
  db : Db
  /-- `users.month_baseline_bytes`. -/
  baseline : Uuid → Int
  /-- `users.month_baseline_at`. -/
  baselineAt : Uuid → Option Int
  /-- The instant of the last event. -/
  clock : Int
  /-- The bytes of every call of `account`, with the owner of the device. -/
  ledger : List Entry
  /-- The bytes of the month before the snapshot. -/
  early : Uuid → Int
  /-- What has left the total since the snapshot. -/
  lost : Uuid → Int
  /-- The last response, with its instant. -/
  shown : Uuid → Option (Int × Int)

inductive UsageEvent where
  | account (c : Delivery)
  /-- `devices::set_status` of a revocation, or its failure. -/
  | revoke (now : Int) (userId deviceId : Uuid) (available : Bool)
  /-- `GET /me/usage`; the flags say whether the `SELECT`s and the `UPDATE` are answered. -/
  | usage (now : Int) (userId : Uuid) (reads writes : Bool)

def UsageEvent.time : UsageEvent → Int
  | account c => c.observation.sampledAt
  | revoke now .. => now
  | usage now .. => now

/-- The lifetime total of a device. -/
def lifetimeBytes (d : Device) : Int := d.lifetimeRxBytes + d.lifetimeTxBytes

/-- A device that counts for the user. -/
def counted (userId : Uuid) (d : Device) : Bool := d.userId == userId && d.live

/-- The sum of `user_lifetime_total`. -/
def lifetimeTotal (userId : Uuid) (db : Db) : Int :=
  columnSum (counted userId) lifetimeBytes db.devices

/-- `user_lifetime_total`; a sum out of range is an error of the statement. -/
def userLifetimeTotal (userId : Uuid) (db : Db) : Except DbError Int :=
  if inI64 (lifetimeTotal userId db) ∧
      ∀ d ∈ db.devices, counted userId d = true → inI64 (lifetimeBytes d) then
    .ok (lifetimeTotal userId db)
  else .error .constraint

/-- The baseline of `month_quota`, with the default for a user who is gone. -/
def monthBaseline (s : UsageState) (userId : Uuid) : Int × Option Int :=
  if (Db.Users.findById userId s.db).isSome then (s.baseline userId, s.baselineAt userId)
  else (0, none)

/-- `usage`: the response, and the baseline to write. -/
def usage (s : UsageState) (userId : Uuid) (now : Int) : Except DbError (Int × Option Int) := do
  let total ← userLifetimeTotal userId s.db
  match monthBaseline s userId with
  | (baseline, some at_) =>
      if firstOfMonth now ≤ ofTimestamp at_ then
        pure (max ((total - baseline).bmod (2 ^ 64)) 0, none)
      else pure (0, some total)
  | (_, none) => pure (max total 0, some 0)

/-- The bytes of the user's devices since the start of the month of `t`. -/
def monthBytes (userId : Uuid) (t : Int) (ledger : List Entry) : Int :=
  cycleBytes (fun x => x.userId == userId) t ledger

/-- The bytes that a call of `account` books. -/
def bookedBytes (db : Db) (c : Delivery) : Int :=
  match (deliver db c).2 with
  | .ok u => u.serverRxDelta + u.serverTxDelta
  | .error _ => 0

/-- What a revocation takes out of the total. -/
def revokedBytes (userId deviceId : Uuid) (db : Db) : Int :=
  columnSum (fun d => Db.Devices.owned userId deviceId d && d.live) lifetimeBytes db.devices

def addTo (f : Uuid → Int) (userId : Uuid) (x : Int) : Uuid → Int :=
  Function.update f userId (f userId + x)

/-- A call of `account`. -/
def accountStep (s : UsageState) (c : Delivery) : UsageState :=
  match Db.Devices.getById c.observation.deviceId s.db with
  | none => { s with db := delivered s.db c }
  | some d =>
      { s with
        db := delivered s.db c
        ledger := s.ledger ++ [⟨d.userId, d.id, bookedBytes s.db c, c.observation.sampledAt⟩]
        lost := if d.live then s.lost else addTo s.lost d.userId (bookedBytes s.db c) }

/-- A revocation. -/
def revokeStep (s : UsageState) (userId deviceId : Uuid) : UsageState :=
  match Db.Devices.setStatus userId deviceId .revoked s.db with
  | .ok (_, db') =>
      { s with db := db', lost := addTo s.lost userId (revokedBytes userId deviceId s.db) }
  | .error _ => s

/-- The snapshot of a request; its failure is ignored. -/
def setMonthBaseline (s : UsageState) (userId : Uuid) (now : Int) : Option Int → UsageState
  | none => s
  | some bytes =>
      { s with
        baseline := Function.update s.baseline userId bytes
        baselineAt := Function.update s.baselineAt userId (some (toTimestamp (firstOfMonth now)))
        early := Function.update s.early userId (monthBytes userId now s.ledger)
        lost := Function.update s.lost userId 0 }

def usageRequest (s : UsageState) (now : Int) (userId : Uuid) (reads writes : Bool) : UsageState :=
  if reads then
    match usage s userId now with
    | .ok (shown, baseline) =>
        { setMonthBaseline s userId now (if writes then baseline else none) with
          shown := Function.update s.shown userId (some (now, shown)) }
    | .error _ => s
  else s

/-- One event, at its instant. -/
def usageStep (s : UsageState) (e : UsageEvent) : UsageState :=
  let s := { s with clock := e.time }
  match e with
  | .account c => accountStep s c
  | .revoke _ userId deviceId available =>
      if available then revokeStep s userId deviceId else s
  | .usage now userId reads writes => usageRequest s now userId reads writes

/-- The instants of a run do not decrease. -/
def InOrder (s : UsageState) (e : UsageEvent) : Prop := s.clock ≤ e.time

/-- The user's baseline was set in an earlier month; what has been booked is not later than the
present. -/
structure Tracked (userId : Uuid) (s : UsageState) : Prop where
  present : (Db.Users.findById userId s.db).isSome = true
  lifetimes : ∀ d ∈ s.db.devices, 0 ≤ d.lifetimeRxBytes ∧ 0 ≤ d.lifetimeTxBytes
  baseline : 0 ≤ s.baseline userId ∧ s.baseline userId < 2 ^ 63
  earlier : ∃ t, s.baselineAt userId = some (toTimestamp (firstOfMonth t)) ∧
    monthOf t < monthOf s.clock
  entries : ∀ x ∈ s.ledger, x.at_ ≤ s.clock ∧ 0 ≤ x.bytes
  shown : s.shown userId = none

/-- The response is the bytes of the month, and no less than an earlier one of the month. -/
def ShownRightly (userId : Uuid) (s : UsageState) : UsageEvent → Prop
  | .usage now u reads _ => u = userId → reads = true →
      ∀ shown baseline, usage s userId now = .ok (shown, baseline) →
        shown = monthBytes userId now s.ledger ∧
          ∀ t before, s.shown userId = some (t, before) → monthOf t = monthOf now →
            before ≤ shown
  | _ => True

/-- The condition on a request that is answered: the month has no bytes yet, or it was viewed
before it had any, and nothing has left the total since. -/
def Covered (userId : Uuid) (s : UsageState) : UsageEvent → Prop
  | .usage now u reads _ => u = userId → reads = true → (userLifetimeTotal userId s.db).isOk →
      monthBytes userId now s.ledger = 0 ∨
        (s.baselineAt userId = some (toTimestamp (firstOfMonth now)) ∧ s.early userId = 0 ∧
          s.lost userId = 0)
  | _ => True

section Statements

variable {userId : Uuid} {db : Db} {c : Delivery}

/-- A call of `account` books no negative number of bytes. -/
theorem bookedBytes_nonneg (db : Db) (c : Delivery) : 0 ≤ bookedBytes db c := by
  unfold bookedBytes
  rcases Db.PeerUsageCheckpoints.delivered_cases db c with ⟨e, herror, -⟩ | ⟨u, hok, haccount⟩
  · rw [herror]
  · rw [hok]
    obtain ⟨-, hdelta, ⟨hrx, htx⟩, -⟩ := Db.PeerUsageCheckpoints.account_eq_ok haccount
    obtain ⟨hserverRx, hserverTx⟩ := Db.PeerUsageCheckpoints.deltaIn_nonneg hrx htx db
    rw [← hdelta] at hserverRx hserverTx
    exact Int.add_nonneg hserverRx hserverTx

/-- The total of a user after a call of `account`. -/
theorem lifetimeTotal_delivered (userId : Uuid) {d : Device}
    (hd : Db.Devices.getById c.observation.deviceId db = some d) :
    lifetimeTotal userId (delivered db c) =
      lifetimeTotal userId db + if counted userId d then bookedBytes db c else 0 := by
  unfold bookedBytes
  rcases Db.PeerUsageCheckpoints.delivered_cases db c with ⟨e, herror, hsame⟩ | ⟨u, hok, haccount⟩
  · rw [herror, hsame]
    simp
  · rw [hok]
    obtain ⟨-, hdelta, -, -⟩ := Db.PeerUsageCheckpoints.account_eq_ok haccount
    refine Db.PeerUsageCheckpoints.devices_columnSum haccount (fun _ => rfl) ?_
      (List.mem_of_find?_eq_some hd) (by simpa using List.find?_some hd)
    intro e
    rw [← hdelta]
    simp only [lifetimeBytes, Db.PeerUsageCheckpoints.bookedDevice]
    omega

/-- A call for no device books nothing. -/
theorem delivered_of_none (hd : Db.Devices.getById c.observation.deviceId db = none) :
    delivered db c = db := by
  rcases Db.PeerUsageCheckpoints.delivered_cases db c with ⟨-, -, hsame⟩ | ⟨u, -, haccount⟩
  · exact hsame
  · obtain ⟨-, -, -, d, hmem, hid⟩ := Db.PeerUsageCheckpoints.account_eq_ok haccount
    have hnot := List.find?_eq_none.mp hd d hmem
    exact absurd (by simpa using hid) hnot

/-- The lifetime counters stay non-negative. -/
theorem lifetimes_delivered
    (h : ∀ d ∈ db.devices, 0 ≤ d.lifetimeRxBytes ∧ 0 ≤ d.lifetimeTxBytes) :
    ∀ d ∈ (delivered db c).devices, 0 ≤ d.lifetimeRxBytes ∧ 0 ≤ d.lifetimeTxBytes := by
  rcases Db.PeerUsageCheckpoints.delivered_cases db c with ⟨-, -, hsame⟩ | ⟨u, -, haccount⟩
  · rw [hsame]
    exact h
  · obtain ⟨htables, -, ⟨hrx, htx⟩, -⟩ := Db.PeerUsageCheckpoints.account_eq_ok haccount
    obtain ⟨hserverRx, hserverTx⟩ := Db.PeerUsageCheckpoints.deltaIn_nonneg hrx htx db
    rw [htables, Db.PeerUsageCheckpoints.booked_devices]
    refine forall_updateWhere h ?_
    rintro d - - ⟨hdrx, hdtx⟩
    exact ⟨Int.add_nonneg hdrx hserverTx, Int.add_nonneg hdtx hserverRx⟩

/-- An update that keeps who is there. -/
theorem present_updateWhere {db' : Db} {p : User → Bool} {g : User → User}
    (hg : ∀ v, Db.Users.present userId (g v) = Db.Users.present userId v)
    (husers : db'.users = updateWhere p g db.users)
    (h : (Db.Users.findById userId db).isSome = true) :
    (Db.Users.findById userId db').isSome = true := by
  unfold Db.Users.findById at h ⊢
  rw [List.find?_isSome] at h ⊢
  obtain ⟨v, hv, hpresent⟩ := h
  rw [husers]
  cases hp : p v with
  | true =>
      exact ⟨g v, mem_updateWhere_of_pos hv hp, (hg v).trans hpresent⟩
  | false =>
      exact ⟨v, mem_updateWhere_of_not hv hp, hpresent⟩

theorem present_delivered (h : (Db.Users.findById userId db).isSome = true) :
    (Db.Users.findById userId (delivered db c)).isSome = true := by
  rcases Db.PeerUsageCheckpoints.delivered_cases db c with ⟨-, -, hsame⟩ | ⟨u, -, haccount⟩
  · rw [hsame]
    exact h
  · obtain ⟨g, hg, husers⟩ := (Db.PeerUsageCheckpoints.booked_of_account haccount).user
    refine present_updateWhere ?_ husers h
    intro v
    rw [hg v]
    rfl

/-- The tables after a revocation. -/
theorem setStatus_tables {deviceId : Uuid} {n : Nat} {db' : Db} {u : Uuid}
    (h : Db.Devices.setStatus u deviceId .revoked db = .ok (n, db')) :
    db'.users = db.users ∧ db'.devices = updateWhere (Db.Devices.owned u deviceId)
      (fun d => { d with status := .revoked }) db.devices := by
  obtain ⟨htables, -⟩ := Db.updateDevices_eq_ok h
  rw [htables]
  exact ⟨rfl, rfl⟩

/-- The total of a user after a revocation. -/
theorem lifetimeTotal_revoked (userId : Uuid) {deviceId : Uuid} {n : Nat} {db' : Db} {u : Uuid}
    (h : Db.Devices.setStatus u deviceId .revoked db = .ok (n, db')) :
    lifetimeTotal userId db' =
      lifetimeTotal userId db - if userId = u then revokedBytes u deviceId db else 0 := by
  unfold lifetimeTotal
  rw [(setStatus_tables h).2, columnSum_deselect]
  · congr 1
    split
    · rename_i heq
      subst heq
      unfold revokedBytes
      congr 1
      funext d
      cases hown : Db.Devices.owned userId deviceId d with
      | false =>
          rfl
      | true =>
          have huser : (d.userId == userId) = true := (Bool.and_eq_true_iff.mp hown).1
          simp [counted, huser]
    · rename_i hne
      refine columnSum_eq_zero ?_
      intro d _
      cases hown : Db.Devices.owned u deviceId d with
      | false =>
          rfl
      | true =>
          have huser : d.userId = u := eq_of_beq (Bool.and_eq_true_iff.mp hown).1
          simp [counted, huser, Ne.symm hne]
  · intro d _
    simp [counted, Device.live]

theorem columnSum_nonneg {ρ : Type} {q : ρ → Bool} {col : ρ → Int} {rows : List ρ}
    (h : ∀ r ∈ rows, 0 ≤ col r) : 0 ≤ columnSum q col rows := by
  induction rows with
  | nil =>
      exact Int.le_refl 0
  | cons r rows ih =>
      rw [columnSum_cons]
      have hrest := ih fun r' hr' => h r' (List.mem_cons_of_mem r hr')
      have hr := h r List.mem_cons_self
      split <;> omega

/-- The bytes of a month after one more entry. -/
theorem monthBytes_append (userId : Uuid) (t : Int) (ledger : List Entry) (x : Entry) :
    monthBytes userId t (ledger ++ [x]) =
      monthBytes userId t ledger +
        if x.userId = userId ∧ monthOf x.at_ = monthOf t then x.bytes else 0 := by
  unfold monthBytes cycleBytes
  rw [columnSum_append, columnSum_cons, columnSum_nil]
  simp [inCycle_eq]

theorem monthBytes_congr {t t' : Int} (h : monthOf t = monthOf t') (ledger : List Entry) :
    monthBytes userId t ledger = monthBytes userId t' ledger :=
  cycleBytes_congr h

/-- The start of a month is a whole microsecond. -/
theorem ofTimestamp_firstOfMonth (t : Int) :
    ofTimestamp (toTimestamp (firstOfMonth t)) = firstOfMonth t := by
  have hwhole : firstOfMonth t = ofTimestamp (Db.monthStart (monthOf t) * (86400 * 1000000)) := by
    rw [Db.firstOfMonth_eq]
    unfold ofTimestamp Db.nanosPerDay
    omega
  rw [hwhole, Db.toTimestamp_ofTimestamp]

/-- The comparison of a baseline with the start of the month. -/
theorem firstOfMonth_le_iff {t now : Int} : firstOfMonth now ≤ firstOfMonth t ↔
    monthOf now ≤ monthOf t := by
  rw [Db.firstOfMonth_eq, Db.firstOfMonth_eq]
  have hpos : (0 : Int) < Db.nanosPerDay := by decide
  rw [Int.mul_le_mul_right hpos]
  exact Db.monthStart_strictMono.le_iff_le

end Statements

/-- The figures of the month of the snapshot `t`. -/
structure Balanced (userId : Uuid) (t : Int) (s : UsageState) : Prop where
  early : 0 ≤ s.early userId
  lost : 0 ≤ s.lost userId
  total : lifetimeTotal userId s.db - s.baseline userId =
    monthBytes userId t s.ledger - s.early userId - s.lost userId

/-- What every event keeps. -/
structure UsageInv (userId : Uuid) (s : UsageState) : Prop where
  present : (Db.Users.findById userId s.db).isSome = true
  lifetimes : ∀ d ∈ s.db.devices, 0 ≤ d.lifetimeRxBytes ∧ 0 ≤ d.lifetimeTxBytes
  baseline : 0 ≤ s.baseline userId ∧ s.baseline userId < 2 ^ 63
  entries : ∀ x ∈ s.ledger, x.at_ ≤ s.clock ∧ 0 ≤ x.bytes
  /-- The snapshot balances for as long as its month lasts. -/
  snapshot : ∃ t, s.baselineAt userId = some (toTimestamp (firstOfMonth t)) ∧
    monthOf t ≤ monthOf s.clock ∧ (monthOf s.clock = monthOf t → Balanced userId t s)
  shown : ∀ t bytes, s.shown userId = some (t, bytes) →
    t ≤ s.clock ∧ bytes ≤ monthBytes userId t s.ledger

section Runs

variable {userId : Uuid} {s : UsageState}

theorem usageInv_of_tracked (h : Tracked userId s) : UsageInv userId s where
  present := h.present
  lifetimes := h.lifetimes
  baseline := h.baseline
  entries := h.entries
  snapshot := by
    obtain ⟨t, hat, hmonth⟩ := h.earlier
    exact ⟨t, hat, by omega, fun hsame => by omega⟩
  shown := by
    intro t bytes hshown
    rw [h.shown] at hshown
    cases hshown

theorem UsageInv.monthBytes_nonneg (h : UsageInv userId s) (t : Int) :
    0 ≤ monthBytes userId t s.ledger :=
  columnSum_nonneg fun x hx => (h.entries x hx).2

theorem UsageInv.total_nonneg (h : UsageInv userId s) : 0 ≤ lifetimeTotal userId s.db := by
  refine columnSum_nonneg fun d hd => ?_
  obtain ⟨hrx, htx⟩ := h.lifetimes d hd
  exact Int.add_nonneg hrx htx

/-- The clock moves on. -/
theorem UsageInv.later (h : UsageInv userId s) {now : Int} (hnow : s.clock ≤ now) :
    UsageInv userId { s with clock := now } where
  present := h.present
  lifetimes := h.lifetimes
  baseline := h.baseline
  entries := by
    intro x hx
    obtain ⟨hat, hbytes⟩ := h.entries x hx
    exact ⟨Int.le_trans hat hnow, hbytes⟩
  snapshot := by
    obtain ⟨t, hat, hle, hbalanced⟩ := h.snapshot
    have hmono := Db.monthOf_mono hnow
    refine ⟨t, hat, Int.le_trans hle hmono, ?_⟩
    intro hsame
    have hmonth : monthOf s.clock = monthOf t := by
      change monthOf now = monthOf t at hsame
      omega
    exact ⟨(hbalanced hmonth).early, (hbalanced hmonth).lost, (hbalanced hmonth).total⟩
  shown := by
    intro t bytes hshown
    obtain ⟨ht, hle⟩ := h.shown t bytes hshown
    exact ⟨Int.le_trans ht hnow, hle⟩

/-- A call of `account` at the present instant. -/
theorem UsageInv.account (h : UsageInv userId s) {c : Delivery}
    (hnow : s.clock = c.observation.sampledAt) : UsageInv userId (accountStep s c) := by
  unfold accountStep
  split
  · rename_i hnone
    rw [delivered_of_none hnone]
    exact h
  rename_i d hd
  have hbytes := bookedBytes_nonneg s.db c
  have hgrows : ∀ t, monthBytes userId t s.ledger ≤ monthBytes userId t
      (s.ledger ++ [⟨d.userId, d.id, bookedBytes s.db c, c.observation.sampledAt⟩]) := by
    intro t
    rw [monthBytes_append]
    dsimp only
    split <;> omega
  constructor
  case present =>
    exact present_delivered h.present
  case lifetimes =>
    exact lifetimes_delivered h.lifetimes
  case baseline =>
    exact h.baseline
  case entries =>
    intro x hx
    rcases List.mem_append.mp hx with hx | hx
    · exact h.entries x hx
    · rw [List.mem_singleton.mp hx]
      exact ⟨le_of_eq hnow.symm, hbytes⟩
  case shown =>
    intro t bytes hshown
    obtain ⟨ht, hle⟩ := h.shown t bytes hshown
    exact ⟨ht, Int.le_trans hle (hgrows t)⟩
  case snapshot =>
    obtain ⟨t, hat, hle, hbalanced⟩ := h.snapshot
    refine ⟨t, hat, hle, fun hsame => ?_⟩
    obtain ⟨hearly, hlost, htotal⟩ := hbalanced hsame
    have hmonth : monthOf c.observation.sampledAt = monthOf t := by
      rw [← hnow]
      exact hsame
    have hdelivered := lifetimeTotal_delivered userId hd
    have hentry := monthBytes_append userId t s.ledger
      ⟨d.userId, d.id, bookedBytes s.db c, c.observation.sampledAt⟩
    constructor
    · exact hearly
    · dsimp only
      split
      · exact hlost
      · unfold addTo
        by_cases hown : userId = d.userId
        · subst hown
          rw [Function.update_self]
          omega
        · rw [Function.update_of_ne hown]
          exact hlost
    · dsimp only
      rw [hdelivered, hentry]
      by_cases hown : d.userId = userId
      · subst hown
        by_cases hlive : d.live = true
        · simp only [counted, hlive, hmonth, beq_self_eq_true, Bool.and_self, if_true, and_self]
          omega
        · simp only [counted, hlive, hmonth, beq_self_eq_true, Bool.and_false, if_false, if_true,
            and_self, addTo, Function.update_self, Bool.false_eq_true]
          omega
      · have hlostSame : (if d.live then s.lost else addTo s.lost d.userId
            (bookedBytes s.db c)) userId = s.lost userId := by
          split
          · rfl
          · exact Function.update_of_ne (Ne.symm hown) _ _
        rw [hlostSame]
        simp only [counted, beq_eq_false_iff_ne.mpr hown, hown, Bool.false_and, if_false,
          false_and, Bool.false_eq_true]
        omega

/-- A revocation. -/
theorem UsageInv.revoke (h : UsageInv userId s) (u deviceId : Uuid) :
    UsageInv userId (revokeStep s u deviceId) := by
  unfold revokeStep
  split
  · rename_i n db' hset
    obtain ⟨husers, hdevices⟩ := setStatus_tables hset
    have hbytes : 0 ≤ revokedBytes u deviceId s.db := by
      refine columnSum_nonneg fun d hd => ?_
      obtain ⟨hrx, htx⟩ := h.lifetimes d hd
      exact Int.add_nonneg hrx htx
    constructor
    case present =>
      have hsame : Db.Users.findById userId db' = Db.Users.findById userId s.db := by
        unfold Db.Users.findById
        rw [husers]
      rw [hsame]
      exact h.present
    case lifetimes =>
      dsimp only
      rw [hdevices]
      exact forall_updateWhere h.lifetimes fun _ _ _ hd => hd
    case baseline =>
      exact h.baseline
    case entries =>
      exact h.entries
    case shown =>
      exact h.shown
    case snapshot =>
      obtain ⟨t, hat, hle, hbalanced⟩ := h.snapshot
      refine ⟨t, hat, hle, fun hsame => ?_⟩
      obtain ⟨hearly, hlost, htotal⟩ := hbalanced hsame
      have hrevoked := lifetimeTotal_revoked userId hset
      constructor
      · exact hearly
      · dsimp only [addTo]
        by_cases hown : userId = u
        · subst hown
          rw [Function.update_self]
          omega
        · rw [Function.update_of_ne hown]
          exact hlost
      · dsimp only [addTo]
        rw [hrevoked]
        by_cases hown : userId = u
        · subst hown
          rw [Function.update_self, if_pos rfl]
          omega
        · rw [Function.update_of_ne hown, if_neg hown]
          omega
  · exact h

/-- A request that is answered. -/
theorem usage_ok {now shown : Int} {baseline : Option Int}
    (h : usage s userId now = .ok (shown, baseline)) :
    (inI64 (lifetimeTotal userId s.db) ∧
        ∀ d ∈ s.db.devices, counted userId d = true → inI64 (lifetimeBytes d)) ∧
      match monthBaseline s userId with
      | (b, some at_) =>
          if firstOfMonth now ≤ ofTimestamp at_ then
            shown = max ((lifetimeTotal userId s.db - b).bmod (2 ^ 64)) 0 ∧ baseline = none
          else shown = 0 ∧ baseline = some (lifetimeTotal userId s.db)
      | (_, none) => shown = max (lifetimeTotal userId s.db) 0 ∧ baseline = some 0 := by
  unfold usage userLifetimeTotal at h
  split at h
  · rename_i hrange
    refine ⟨hrange, ?_⟩
    simp only [bind, Except.bind, pure, Except.pure] at h
    split at h
    · split at h
      · rename_i hcurrent
        cases h
        rw [if_pos hcurrent]
        exact ⟨rfl, rfl⟩
      · rename_i hcurrent
        cases h
        rw [if_neg hcurrent]
        exact ⟨rfl, rfl⟩
    · cases h
      exact ⟨rfl, rfl⟩
  · cases h

/-- The figure, in the month of the snapshot and in a later one. -/
theorem UsageInv.figure (h : UsageInv userId s) {now shown : Int} {baseline : Option Int}
    (hnow : s.clock ≤ now) (hok : usage s userId now = .ok (shown, baseline)) :
    (s.baselineAt userId = some (toTimestamp (firstOfMonth now)) ∧ baseline = none ∧
        0 ≤ s.early userId ∧ 0 ≤ s.lost userId ∧
        shown = max (monthBytes userId now s.ledger - s.early userId - s.lost userId) 0) ∨
      (s.baselineAt userId ≠ some (toTimestamp (firstOfMonth now)) ∧ shown = 0 ∧
        baseline = some (lifetimeTotal userId s.db) ∧ inI64 (lifetimeTotal userId s.db)) := by
  obtain ⟨⟨hrange, -⟩, hcases⟩ := usage_ok hok
  obtain ⟨t, hat, hle, hbalanced⟩ := h.snapshot
  have hmono := Db.monthOf_mono hnow
  rw [monthBaseline, if_pos h.present, hat] at hcases
  dsimp only at hcases
  rw [ofTimestamp_firstOfMonth] at hcases
  split at hcases
  · rename_i hcurrent
    have hmonth := firstOfMonth_le_iff.mp hcurrent
    have hnowt : monthOf now = monthOf t := by omega
    have hfirst : firstOfMonth now = firstOfMonth t := by
      rw [Db.firstOfMonth_eq, Db.firstOfMonth_eq, hnowt]
    obtain ⟨hearly, hlost, htotal⟩ := hbalanced (by omega)
    refine Or.inl ⟨by rw [hat, hfirst], hcases.2, hearly, hlost, ?_⟩
    have hnonneg := h.total_nonneg
    obtain ⟨hbaseline, hbound⟩ := h.baseline
    have hexact : (lifetimeTotal userId s.db - s.baseline userId).bmod (2 ^ 64) =
        lifetimeTotal userId s.db - s.baseline userId := by
      unfold inI64 at hrange
      exact Int.bmod_eq_of_le_mul_two (by omega) (by omega)
    rw [hcases.1, hexact, htotal, monthBytes_congr hnowt]
  · rename_i hcurrent
    refine Or.inr ⟨?_, hcases.1, hcases.2, hrange⟩
    rw [hat]
    intro heq
    have hfirst : firstOfMonth t = firstOfMonth now := by
      have hinstants := congrArg ofTimestamp (Option.some.inj heq)
      rwa [ofTimestamp_firstOfMonth, ofTimestamp_firstOfMonth] at hinstants
    exact hcurrent (le_of_eq hfirst.symm)

/-- No response exceeds the bytes of its month. -/
theorem UsageInv.figure_le (h : UsageInv userId s) {now shown : Int} {baseline : Option Int}
    (hnow : s.clock ≤ now) (hok : usage s userId now = .ok (shown, baseline)) :
    shown ≤ monthBytes userId now s.ledger := by
  have hnonneg := h.monthBytes_nonneg now
  rcases h.figure hnow hok with ⟨-, -, hearly, hlost, hshown⟩ | ⟨-, hshown, -, -⟩
  · omega
  · omega

theorem UsageInv.setShown (h : UsageInv userId s) {f : Uuid → Option (Int × Int)}
    (hf : ∀ t bytes, f userId = some (t, bytes) →
      t ≤ s.clock ∧ bytes ≤ monthBytes userId t s.ledger) :
    UsageInv userId { s with shown := f } where
  present := h.present
  lifetimes := h.lifetimes
  baseline := h.baseline
  entries := h.entries
  snapshot := by
    obtain ⟨t, hat, hle, hbalanced⟩ := h.snapshot
    refine ⟨t, hat, hle, fun hsame => ?_⟩
    obtain ⟨hearly, hlost, htotal⟩ := hbalanced hsame
    exact ⟨hearly, hlost, htotal⟩
  shown := hf

/-- Another user's snapshot leaves the columns of the user alone. -/
theorem UsageInv.snapshot_other (h : UsageInv userId s) {u : Uuid} (hu : u ≠ userId) (now : Int)
    (bytes : Option Int) : UsageInv userId (setMonthBaseline s u now bytes) := by
  have hne : userId ≠ u := Ne.symm hu
  cases bytes with
  | none =>
      exact h
  | some bytes =>
      obtain ⟨t, hat, hle, hbalanced⟩ := h.snapshot
      refine ⟨h.present, h.lifetimes, ?_, h.entries, ⟨t, ?_, hle, ?_⟩, h.shown⟩
      · dsimp only [setMonthBaseline]
        rw [Function.update_of_ne hne]
        exact h.baseline
      · dsimp only [setMonthBaseline]
        rw [Function.update_of_ne hne]
        exact hat
      · intro hsame
        obtain ⟨hearly, hlost, htotal⟩ := hbalanced hsame
        constructor
        all_goals
          dsimp only [setMonthBaseline]
          simp only [Function.update_of_ne hne]
          assumption

/-- The snapshot of a request of the user. -/
theorem UsageInv.snapshot_own (h : UsageInv userId s) {now shown : Int} {baseline : Option Int}
    (hnow : s.clock = now) (hok : usage s userId now = .ok (shown, baseline)) :
    UsageInv userId (setMonthBaseline s userId now baseline) := by
  rcases h.figure (le_of_eq hnow) hok with ⟨-, rfl, -⟩ | ⟨-, -, rfl, hrange⟩
  · exact h
  · refine ⟨h.present, h.lifetimes, ?_, h.entries, ⟨now, ?_, ?_, ?_⟩, h.shown⟩
    · dsimp only [setMonthBaseline]
      rw [Function.update_self]
      exact ⟨h.total_nonneg, hrange.2⟩
    · exact Function.update_self ..
    · exact le_of_eq (congrArg monthOf hnow.symm)
    · intro _
      constructor
      · dsimp only [setMonthBaseline]
        rw [Function.update_self]
        exact h.monthBytes_nonneg now
      · dsimp only [setMonthBaseline]
        rw [Function.update_self]
      · dsimp only [setMonthBaseline]
        rw [Function.update_self, Function.update_self, Function.update_self]
        omega

theorem setMonthBaseline_rest (s : UsageState) (u : Uuid) (now : Int) (bytes : Option Int) :
    (setMonthBaseline s u now bytes).clock = s.clock ∧
      (setMonthBaseline s u now bytes).ledger = s.ledger := by
  cases bytes with
  | none =>
      exact ⟨rfl, rfl⟩
  | some bytes =>
      exact ⟨rfl, rfl⟩

/-- A request at the present instant. -/
theorem UsageInv.request (h : UsageInv userId s) {now : Int} (hnow : s.clock = now) (u : Uuid)
    (reads writes : Bool) : UsageInv userId (usageRequest s now u reads writes) := by
  unfold usageRequest
  split
  · split
    · rename_i shown baseline hok
      have hset :
          UsageInv userId (setMonthBaseline s u now (if writes then baseline else none)) := by
        by_cases hu : u = userId
        · subst hu
          cases writes with
          | true =>
              exact h.snapshot_own hnow hok
          | false =>
              exact h
        · exact h.snapshot_other hu now _
      obtain ⟨hclock, hledger⟩ := setMonthBaseline_rest s u now (if writes then baseline else none)
      refine hset.setShown ?_
      rw [hclock, hledger]
      intro t bytes heq
      by_cases hu : u = userId
      · subst hu
        rw [Function.update_self] at heq
        cases heq
        exact ⟨le_of_eq hnow.symm, h.figure_le (le_of_eq hnow) hok⟩
      · rw [Function.update_of_ne (Ne.symm hu)] at heq
        exact h.shown t bytes heq
    · exact h
  · exact h

theorem usageInv_step (h : UsageInv userId s) {e : UsageEvent} (he : InOrder s e) :
    UsageInv userId (usageStep s e) := by
  have hlater := h.later he
  cases e with
  | account c =>
      exact hlater.account rfl
  | revoke now u deviceId available =>
      cases available with
      | true =>
          exact hlater.revoke u deviceId
      | false =>
          exact hlater
  | usage now u reads writes =>
      exact hlater.request rfl u reads writes

/-- The statement that an answered request rests on. -/
theorem isOk_of_usage {now shown : Int} {baseline : Option Int}
    (h : usage s userId now = .ok (shown, baseline)) :
    (userLifetimeTotal userId s.db).isOk = true := by
  have hrange := (usage_ok h).1
  unfold userLifetimeTotal
  rw [if_pos hrange]
  rfl

theorem usage_of_isOk (now : Int) (h : (userLifetimeTotal userId s.db).isOk = true) :
    ∃ shown baseline, usage s userId now = .ok (shown, baseline) := by
  unfold usage
  cases htotal : userLifetimeTotal userId s.db with
  | error e =>
      rw [htotal] at h
      cases h
  | ok total =>
      simp only [bind, Except.bind, pure, Except.pure]
      split
      · split
        · exact ⟨_, _, rfl⟩
        · exact ⟨_, _, rfl⟩
      · exact ⟨_, _, rfl⟩

/-- A response is right exactly when its request meets the condition. -/
theorem shownRightly_iff (h : UsageInv userId s) {e : UsageEvent} (he : InOrder s e) :
    ShownRightly userId s e ↔ Covered userId s e := by
  cases e with
  | account c =>
      exact Iff.rfl
  | revoke now u deviceId available =>
      exact Iff.rfl
  | usage now u reads writes =>
      have hnonneg := h.monthBytes_nonneg now
      have hnow : s.clock ≤ now := he
      constructor
      · intro hright hu hreads hreadable
        obtain ⟨shown, baseline, hok⟩ := usage_of_isOk now hreadable
        have hshown := (hright hu hreads shown baseline hok).1
        rcases h.figure hnow hok with ⟨hat, -, hearly, hlost, hfigure⟩ | ⟨-, hzero, -⟩
        · by_cases hmonth : monthBytes userId now s.ledger = 0
          · exact Or.inl hmonth
          · exact Or.inr ⟨hat, by omega, by omega⟩
        · exact Or.inl (hshown.symm.trans hzero)
      · intro hcovered hu hreads shown baseline hok
        have hshown : shown = monthBytes userId now s.ledger := by
          have hcase := hcovered hu hreads (isOk_of_usage hok)
          rcases h.figure hnow hok with ⟨-, -, hearly, hlost, hfigure⟩ | ⟨hnot, hzero, -⟩
          · rcases hcase with hmonth | ⟨-, hnone, hkept⟩
            · omega
            · omega
          · rcases hcase with hmonth | ⟨hat, -⟩
            · omega
            · exact absurd hat hnot
        refine ⟨hshown, ?_⟩
        intro t before hbefore hmonth
        rw [hshown, ← monthBytes_congr hmonth]
        exact (h.shown t before hbefore).2

end Runs

/--
Every response of `GET /me/usage` to the user is the bytes that were accounted to the user's
devices in the month, and no less than an earlier one of the month, exactly when every
request meets the condition.
-/
theorem monthly_usage_iff (userId : Uuid) (s : UsageState) (hs : Tracked userId s)
    (es : List UsageEvent) (horder : Along usageStep InOrder s es) :
    Along usageStep (ShownRightly userId) s es ↔ Along usageStep (Covered userId) s es :=
  along_congr_of_along (UsageInv userId) (fun _ _ h he => usageInv_step h he)
    (fun _ _ h he => shownRightly_iff h he) (usageInv_of_tracked hs) horder

/-- 2026-06-01, in nanoseconds. -/
def june : Int := 1780272000 * 1000000000

/-- The user has viewed the page in May; a checkpoint of the device is there. -/
def sampleUsage : UsageState where
  db := delivered Db.PeerUsageCheckpoints.ledgerDb
    ⟨Db.PeerUsageCheckpoints.sampleObservation 0 100, true⟩
  baseline := fun _ => 0
  baselineAt := fun _ => some (toTimestamp (firstOfMonth (june - 1)))
  clock := june
  ledger := []
  early := fun _ => 0
  lost := fun _ => 0
  shown := fun _ => none

theorem tracked_sample : Tracked 2 sampleUsage where
  present := by decide
  lifetimes := by decide
  baseline := by decide
  earlier := ⟨june - 1, rfl, by decide⟩
  entries := by decide
  shown := rfl

/-- A view on the first day of June, before any traffic, and one after it. -/
def sampleViews : List UsageEvent :=
  [.usage (june + 1000000000) 2 true true,
    .account ⟨Db.PeerUsageCheckpoints.sampleObservation 5000000000 300, true⟩,
    .usage (june + 6000000000) 2 true true]

instance (userId : Uuid) (s : UsageState) : (e : UsageEvent) → Decidable (Covered userId s e)
  | .usage now u reads _ => inferInstanceAs (Decidable (u = userId → reads = true →
      (userLifetimeTotal userId s.db).isOk = true → monthBytes userId now s.ledger = 0 ∨
        (s.baselineAt userId = some (toTimestamp (firstOfMonth now)) ∧ s.early userId = 0 ∧
          s.lost userId = 0)))
  | .account _ | .revoke .. => .isTrue trivial

instance (s : UsageState) (e : UsageEvent) : Decidable (InOrder s e) :=
  inferInstanceAs (Decidable (s.clock ≤ e.time))

theorem monthly_usage_sample : Along usageStep (ShownRightly 2) sampleUsage sampleViews :=
  (monthly_usage_iff 2 sampleUsage tracked_sample sampleViews (by decide)).mpr
    (by decide)

/-- The page is viewed for the first time in June after 400 bytes; it shows none of them. -/
theorem first_view_hides_traffic :
    let s := usageStep sampleUsage
      (.account ⟨Db.PeerUsageCheckpoints.sampleObservation 5000000000 300, true⟩)
    let e := UsageEvent.usage (june + 6000000000) 2 true true
    usage s 2 (june + 6000000000) = .ok (0, some 400) ∧
      monthBytes 2 (june + 6000000000) s.ledger = 400 ∧ ¬ ShownRightly 2 s e := by
  intro s e
  have hshown : usage s 2 (june + 6000000000) = .ok (0, some 400) := by
    decide
  have hbytes : monthBytes 2 (june + 6000000000) s.ledger = 400 := by
    decide
  refine ⟨hshown, hbytes, fun hright => ?_⟩
  have hzero := (hright rfl rfl 0 (some 400) hshown).1
  rw [hbytes] at hzero
  cases hzero

end MonthlyUsage
end Api
end ZeroVpn
