import ZeroVpn.Db.UsageLedger
import ZeroVpn.Db.Months

/-!
# Notices about the monthly quota

The end of `poll_once` in `crates/zerovpn-worker/src/wg_poller.rs`: after the
traffic of a device is accounted, the owner's monthly total is compared with the
account cap.  `quota_tier` remembers in memory the tier that was last seen for a
user, and a notice is sent when a tick sees a higher one.

A total belongs to the cycle in which it is accounted, that is, to the window of
the account after the tick.  A window that is over is replaced by one that ends
later, by the first traffic in the new month or by the quota sweep.  The
remembered tier knows nothing of this: it is lowered only by a tick that sees a
lower tier.
-/

namespace ZeroVpn

open Library

namespace Db

/-- The cap of a present account, its counter and the end of its window. -/
def quotaOf (id : Uuid) (db : Db) : Option (Option Int × Int × Option Int) :=
  (Users.findById id db).map fun u => (u.monthlyByteCap, u.currentMonthBytes, u.quotaResetsAt)

namespace PeerUsageCheckpoints

section Quota

variable {a : Observation} {x : Delta} {db db' : Db}

/-- What the update of the user returns is the row that is stored. -/
theorem bookTraffic_quota {quota : Option (Int × Option Int)} (hpos : 0 < x.combined)
    (h : bookTraffic a x db = .ok (quota, db')) :
    quota = (quotaOf a.userId db').map fun q => (q.2.1, q.1) := by
  unfold bookTraffic at h
  rw [if_pos hpos] at h
  obtain ⟨_, db₁, hserver, h⟩ := tx_bind_eq_ok.mp h
  obtain ⟨user, db₂, huser, h⟩ := tx_bind_eq_ok.mp h
  obtain ⟨_, db₃, hsample, h⟩ := tx_bind_eq_ok.mp h
  obtain ⟨_, db₄, hupdate, hfetch⟩ := tx_bind_eq_ok.mp huser
  obtain ⟨hfound, rfl⟩ := fetchOne_eq_ok hfetch
  cases h
  have husers : db'.users = db₂.users := by
    rw [(write_return_eq_ok hsample).1]
  unfold quotaOf
  unfold Users.findById at hfound ⊢
  rw [husers, hfound]
  rfl

theorem account_quota {u : AccountedUsage} (h : account a db = .ok (u, db')) :
    u.userQuota =
      if 0 < (a.deltaIn db).combined then (quotaOf a.userId db').map fun q => (q.2.1, q.1)
      else none := by
  have hdelta := (account_eq_ok h).2.1
  unfold account at h
  obtain ⟨_, db₀, hvalid, h₁⟩ := tx_bind_eq_ok.mp h
  obtain ⟨inserted, db₁, hinsert, h₂⟩ := tx_bind_eq_ok.mp h₁
  obtain ⟨old, db₁', hselect, h₃⟩ := tx_bind_eq_ok.mp h₂
  obtain ⟨_, db₂, hadvance, h₄⟩ := tx_bind_eq_ok.mp h₃
  obtain ⟨_, db₂', hoverflow, h₅⟩ := tx_bind_eq_ok.mp h₄
  obtain ⟨device, db₃, hdevice, h₆⟩ := tx_bind_eq_ok.mp h₅
  obtain ⟨quota, db₄, htraffic, h₇⟩ := tx_bind_eq_ok.mp h₆
  cases h₇
  rw [← hdelta]
  dsimp only
  by_cases hpos : 0 < (a.delta old inserted).combined
  · rw [if_pos hpos]
    exact bookTraffic_quota hpos htraffic
  · rw [if_neg hpos]
    unfold bookTraffic at htraffic
    rw [if_neg hpos] at htraffic
    cases htraffic
    rfl

/-- The quota of an account after an accounted observation. -/
theorem account_quotaOf {u : AccountedUsage} (h : account a db = .ok (u, db')) (owner : Uuid) :
    quotaOf owner db' =
      if owner = a.userId ∧ 0 < (a.deltaIn db).combined then
        (quotaOf owner db).map fun q =>
          (q.1, rollMonth (a.deltaIn db).combined a.sampledAt q.2.1 q.2.2)
      else quotaOf owner db := by
  have husers : db'.users = updateWhere (Users.present a.userId)
      (if 0 < (a.deltaIn db).combined then bookedUser a (a.deltaIn db) else id) db.users := by
    rw [(account_eq_ok h).1, booked_users]
  unfold quotaOf Users.findById
  rw [husers, find?_updateWhere]
  · cases hfound : db.users.find? (Users.present owner) with
    | none =>
        simp
    | some r =>
        have hpresent := List.find?_some hfound
        by_cases hid : owner = a.userId
        · subst hid
          by_cases hpos : 0 < (a.deltaIn db).combined
          · simp only [Option.map_some, if_pos hpresent, if_pos hpos, true_and, bookedUser]
          · simp [hpos]
        · have hother : Users.present a.userId r = false := by
            simp only [Users.present, Bool.and_eq_true, beq_iff_eq] at hpresent
            simp [Users.present, hpresent.1, hid]
          simp [hother, hid]
  · intro r _
    split
    · rfl
    · rfl

end Quota

end PeerUsageCheckpoints

/-- The quota of an account after the sweep. -/
theorem resetDueUsers_quotaOf {now next : Int} {db db' : Db} {n : Nat}
    (h : Quota.resetDueUsers now next db = .ok (n, db')) (owner : Uuid) :
    quotaOf owner db' =
      (quotaOf owner db).map fun q =>
        if Quota.due now q.2.2 then (q.1, 0, some (toTimestamp next)) else q := by
  unfold quotaOf Users.findById
  rw [(updateUsers_eq_ok h).1]
  dsimp only
  rw [find?_updateWhere]
  · cases hfound : db.users.find? (Users.present owner) with
    | none =>
        rfl
    | some r =>
        have hpresent := List.find?_some hfound
        simp only [Users.present, Bool.and_eq_true] at hpresent
        simp only [Option.map_some, hpresent.2, Bool.and_true]
        split
        · rfl
        · rfl
  · intro r _
    rfl

end Db

namespace Worker

open Db (Uuid quotaOf toTimestamp firstOfNextMonth lt_firstOfNextMonth)
open Db.PeerUsageCheckpoints (Observation AccountedUsage Delivery deliver rollMonth windowOver
  account_quota account_quotaOf account_eq_ok)

/-- `NotifyLevel` of the notices about the quota. -/
inductive NotifyLevel where
  | warning
  | error
  deriving DecidableEq, Repr

structure Notify where
  userId : Uuid
  level : NotifyLevel
  title : String
  body : String
  deriving DecidableEq, Repr

/-- `i64::saturating_mul`. -/
def saturatingMul (x y : Int) : Int := max (-2 ^ 63) (min (x * y) (2 ^ 63 - 1))

/-- The tier of a total: 0 none, 1 at least 90%, 2 at least 100%. -/
def tierOf (current cap : Int) : Nat :=
  if cap ≤ current then 2
  else if saturatingMul cap 9 ≤ saturatingMul current 10 then 1
  else 0

def quotaNotify (userId : Uuid) (tier : Nat) : Notify :=
  if 2 ≤ tier then
    ⟨userId, .error, "Monthly data limit reached",
      "You've used your full monthly data allowance."⟩
  else
    ⟨userId, .warning, "Approaching your data limit",
      "You've used over 90% of this month's data."⟩

/-- A notice with the cycle and the total that it was sent for. -/
structure Notice where
  notify : Notify
  cycle : Option Int
  total : Int
  deriving DecidableEq, Repr

/-- A monthly total as it was accounted. -/
structure Total where
  userId : Uuid
  cycle : Option Int
  bytes : Int
  deriving DecidableEq, Repr

/-- The database, the memory of the worker, and the record of the run: the
notices that were sent and the totals that were accounted. -/
structure NoticeState where
  db : Db
  quotaTier : Uuid → Nat
  sent : List Notice
  totals : List Total

/-- The start of the worker. -/
def NoticeState.boot (db : Db) : NoticeState := ⟨db, fun _ => 0, [], []⟩

/-- The cycle in which the traffic of a user is accounted. -/
def cycleOf (userId : Uuid) (db : Db) : Option Int := (quotaOf userId db).bind fun q => q.2.2

/-- The quota part of `poll_once`, for one accounted peer. -/
def announce (a : Observation) (usage : AccountedUsage) (cycle : Option Int)
    (s : NoticeState) : NoticeState :=
  if a.hasHandshake && (usage.serverRxDelta != 0 || usage.serverTxDelta != 0) then
    match usage.userQuota with
    | some (current, some cap) =>
        if 0 < cap then
          { s with
            sent :=
              if s.quotaTier a.userId < tierOf current cap then
                s.sent ++ [⟨quotaNotify a.userId (tierOf current cap), cycle, current⟩]
              else s.sent
            quotaTier :=
              if tierOf current cap ≠ s.quotaTier a.userId then
                Function.update s.quotaTier a.userId (tierOf current cap)
              else s.quotaTier }
        else s
    | _ => s
  else s

/-- One observed peer, a run of the quota sweep, or any other change of the
database that leaves the quotas of the accounts as they are. -/
inductive NoticeEvent where
  | tick (c : Delivery)
  | sweep (now : Int)
  | other (db : Db)

def noticeStep (s : NoticeState) : NoticeEvent → NoticeState
  | .tick c =>
      match deliver s.db c with
      | (db, .ok usage) =>
          let cycle := cycleOf c.observation.userId db
          announce c.observation usage cycle
            { s with
              db := db
              totals := s.totals ++
                (usage.userQuota.map fun q => ⟨c.observation.userId, cycle, q.1⟩).toList }
      | (db, .error _) => { s with db := db }
  | .sweep now =>
      match Db.Quota.resetDueUsers now (firstOfNextMonth now) s.db with
      | .ok (_, db) => { s with db := db }
      | .error _ => s
  | .other db =>
      if ∀ u ∈ s.db.users, quotaOf u.id db = quotaOf u.id s.db then { s with db := db } else s

/-- The notices that a user was sent. -/
def sentTo (userId : Uuid) (s : NoticeState) : List Notice :=
  s.sent.filter fun n => n.notify.userId == userId

/-- The totals that were accounted for a user. -/
def totalsOf (userId : Uuid) (s : NoticeState) : List Total :=
  s.totals.filter fun t => t.userId == userId

/-- Each notice at most once in a cycle, the limit notice in every cycle whose
total reaches the cap, and a warning from nine tenths on. -/
structure NoticesRight (cap : Int) (sent : List Notice) (totals : List Total) : Prop where
  once : sent.Pairwise fun m n => ¬(m.cycle = n.cycle ∧ m.notify.level = n.notify.level)
  limit : ∀ t ∈ totals, cap ≤ t.bytes →
    ∃ n ∈ sent, n.cycle = t.cycle ∧ n.notify.level = .error
  nineTenths : ∀ n ∈ sent, n.notify.level = .warning → 9 * cap ≤ 10 * n.total

instance (cap : Int) (sent : List Notice) (totals : List Total) :
    Decidable (NoticesRight cap sent totals) :=
  decidable_of_iff (_ ∧ _ ∧ _) ⟨fun h => ⟨h.1, h.2.1, h.2.2⟩, fun h => ⟨h.1, h.2, h.3⟩⟩

/-- The total and the cycle that a tick of the user is going to account. -/
def booking (userId : Uuid) (s : NoticeState) : NoticeEvent → Option (Int × Option Int)
  | .tick c =>
      if c.observation.userId = userId ∧ 0 < (c.observation.deltaIn s.db).combined ∧
          (deliver s.db c).2.isOk then
        (quotaOf userId s.db).map fun q =>
          rollMonth (c.observation.deltaIn s.db).combined c.observation.sampledAt q.2.1 q.2.2
      else none
  | _ => none

/-- The first total of a cycle reaches the cap while the tier of an earlier cycle
that did so is still remembered. -/
def LimitForgotten (userId : Uuid) (cap : Int) (s : NoticeState) (b : Int × Option Int) : Prop :=
  s.quotaTier userId = 2 ∧ cap ≤ b.1 ∧ ∀ t ∈ totalsOf userId s, t.cycle ≠ b.2

/-- Ten times the total saturates below nine times the cap. -/
def Saturated (userId : Uuid) (cap : Int) (s : NoticeState) (b : Int × Option Int) : Prop :=
  s.quotaTier userId = 0 ∧ 2 ^ 63 - 1 ≤ 10 * b.1 ∧ 10 * b.1 < 9 * cap

/-- The event runs into neither. -/
def QuotaClear (userId : Uuid) (cap : Int) (s : NoticeState) (e : NoticeEvent) : Prop :=
  ∀ b ∈ booking userId s e, ¬LimitForgotten userId cap s b ∧ ¬Saturated userId cap s b

instance (userId : Uuid) (cap : Int) (s : NoticeState) (e : NoticeEvent) :
    Decidable (QuotaClear userId cap s e) :=
  inferInstanceAs (Decidable (∀ b ∈ booking userId s e,
    ¬(s.quotaTier userId = 2 ∧ cap ≤ b.1 ∧ ∀ t ∈ totalsOf userId s, t.cycle ≠ b.2) ∧
      ¬(s.quotaTier userId = 0 ∧ 2 ^ 63 - 1 ≤ 10 * b.1 ∧ 10 * b.1 < 9 * cap)))

section Cycles

variable {c w w' : Option Int} {t x r : Int}

/-- A window that ends at `c` is no later than one that ends at `w`. -/
def upTo : Option Int → Option Int → Prop
  | some r, some r' => r ≤ r'
  | _, _ => False

/-- A window that ends at `w'` comes after one that ends at `w`. -/
def later : Option Int → Option Int → Prop
  | none, some _ => True
  | some r, some r' => r < r'
  | _, none => False

theorem upTo_later (h : upTo c w) (hlater : later w w') : upTo c w' ∧ c ≠ w' := by
  cases c with
  | none =>
      exact h.elim
  | some r =>
      cases w with
      | none =>
          exact h.elim
      | some r₁ =>
          cases w' with
          | none =>
              exact hlater.elim
          | some r₂ =>
              simp only [upTo, later] at h hlater
              refine ⟨by simp only [upTo]; omega, ?_⟩
              intro heq
              cases heq
              omega

theorem later_of_over (h : windowOver w t = true) :
    later w (some (toTimestamp (firstOfNextMonth t))) := by
  cases w with
  | none =>
      trivial
  | some r =>
      have hend := Db.toTimestamp_mono (lt_firstOfNextMonth t).le
      have hover : r < toTimestamp t := of_decide_eq_true h
      simp only [later]
      omega

/-- Traffic is added to the present window, or it opens a later one. -/
theorem rollMonth_cases (t r : Int) (w : Option Int) (hx : 0 < x) :
    upTo (rollMonth x t r w).2 (rollMonth x t r w).2 ∧
      (((rollMonth x t r w).2 = w ∧ r < (rollMonth x t r w).1) ∨
        later w (rollMonth x t r w).2) := by
  unfold rollMonth
  by_cases hover : windowOver w t = true
  · rw [if_pos hover]
    exact ⟨Int.le_refl _, Or.inr (later_of_over hover)⟩
  · rw [if_neg hover]
    cases w with
    | none =>
        exact absurd rfl hover
    | some r' =>
        exact ⟨Int.le_refl _, Or.inl ⟨rfl, by dsimp only; omega⟩⟩

end Cycles

section Tiers

variable {x y cap : Int}

theorem tierOf_eq_two_iff : tierOf x cap = 2 ↔ cap ≤ x := by
  unfold tierOf
  split
  · rename_i hreached
    exact ⟨fun _ => hreached, fun _ => rfl⟩
  · rename_i hbelow
    refine ⟨?_, fun h => absurd h hbelow⟩
    split
    · exact fun h => absurd h (by decide)
    · exact fun h => absurd h (by decide)

theorem tierOf_le_two (x cap : Int) : tierOf x cap ≤ 2 := by
  unfold tierOf
  split
  · exact Nat.le_refl 2
  · split
    · exact Nat.le_succ 1
    · exact Nat.zero_le 2

theorem saturatingMul_mono {k : Int} (hk : 0 ≤ k) (h : x ≤ y) :
    saturatingMul x k ≤ saturatingMul y k := by
  have hmul : x * k ≤ y * k := Int.mul_le_mul_of_nonneg_right h hk
  unfold saturatingMul
  omega

theorem tierOf_mono (h : x ≤ y) : tierOf x cap ≤ tierOf y cap := by
  have hmul := saturatingMul_mono (by decide : (0 : Int) ≤ 10) h
  unfold tierOf
  split
  · rw [if_pos (by omega)]
  · split
    · split
      · exact Nat.le_succ 1
      · rw [if_pos (by omega)]
    · exact Nat.zero_le _

/-- A tier of 1 below nine tenths comes from the saturation. -/
theorem tierOf_eq_one_iff (hcap : 0 < cap) :
    tierOf x cap = 1 ↔
      x < cap ∧ (9 * cap ≤ 10 * x ∨ (2 ^ 63 - 1 ≤ 10 * x ∧ 10 * x < 9 * cap)) := by
  unfold tierOf saturatingMul
  split
  · constructor
    · intro h
      cases h
    · intro h
      omega
  · split
    · constructor
      · intro _
        omega
      · intro _
        rfl
    · constructor
      · intro h
        cases h
      · intro h
        omega

end Tiers

section View

/-- What the run looks like from one account. -/
structure View where
  current : Int
  cycle : Option Int
  tier : Nat
  sent : List Notice
  totals : List Total

/-- The account has the cap, and the state shows the view. -/
structure Shows (userId : Uuid) (cap : Int) (s : NoticeState) (v : View) : Prop where
  quota : quotaOf userId s.db = some (some cap, v.current, v.cycle)
  tier : s.quotaTier userId = v.tier
  sent : sentTo userId s = v.sent
  totals : totalsOf userId s = v.totals

/-- The view after a total is accounted. -/
def View.book (userId : Uuid) (cap : Int) (b : Int × Option Int) (v : View) : View where
  current := b.1
  cycle := b.2
  tier := tierOf b.1 cap
  sent :=
    if v.tier < tierOf b.1 cap then
      v.sent ++ [⟨quotaNotify userId (tierOf b.1 cap), b.2, b.1⟩]
    else v.sent
  totals := v.totals ++ [⟨userId, b.2, b.1⟩]

variable {userId : Uuid} {cap : Int} {s : NoticeState} {v : View}

theorem quotaNotify_userId (userId : Uuid) (tier : Nat) :
    (quotaNotify userId tier).userId = userId := by
  unfold quotaNotify
  split
  · rfl
  · rfl

/-- The notices of other users do not show. -/
theorem announce_other {a : Observation} (hne : a.userId ≠ userId) (u : AccountedUsage)
    (cycle : Option Int) (s : NoticeState) :
    (announce a u cycle s).db = s.db ∧ (announce a u cycle s).totals = s.totals ∧
      (announce a u cycle s).quotaTier userId = s.quotaTier userId ∧
      sentTo userId (announce a u cycle s) = sentTo userId s := by
  unfold announce
  split
  · split
    · split
      · refine ⟨rfl, rfl, ?_, ?_⟩
        · dsimp only
          split
          · exact Function.update_of_ne (Ne.symm hne) _ _
          · rfl
        · unfold sentTo
          dsimp only
          split
          · rw [List.filter_append, List.filter_cons_of_neg, List.filter_nil, List.append_nil]
            simpa [quotaNotify_userId] using hne
          · rfl
      · exact ⟨rfl, rfl, rfl, rfl⟩
    · exact ⟨rfl, rfl, rfl, rfl⟩
  · exact ⟨rfl, rfl, rfl, rfl⟩

theorem announce_none {a : Observation} {u : AccountedUsage} (h : u.userQuota = none)
    (cycle : Option Int) (s : NoticeState) : announce a u cycle s = s := by
  unfold announce
  rw [h]
  split
  · rfl
  · rfl

/-- A total of a capped account is announced. -/
theorem announce_own {a : Observation} {u : AccountedUsage} {current : Int} (hcap : 0 < cap)
    (hhandshake : a.hasHandshake = true)
    (hmoved : (u.serverRxDelta != 0 || u.serverTxDelta != 0) = true)
    (hquota : u.userQuota = some (current, some cap)) (cycle : Option Int) (s : NoticeState) :
    (announce a u cycle s).db = s.db ∧ (announce a u cycle s).totals = s.totals ∧
      (announce a u cycle s).quotaTier a.userId = tierOf current cap ∧
      sentTo a.userId (announce a u cycle s) =
        if s.quotaTier a.userId < tierOf current cap then
          sentTo a.userId s ++ [⟨quotaNotify a.userId (tierOf current cap), cycle, current⟩]
        else sentTo a.userId s := by
  unfold announce
  rw [hhandshake, hmoved, hquota, Bool.and_self, if_pos rfl]
  dsimp only
  rw [if_pos hcap]
  refine ⟨rfl, rfl, ?_, ?_⟩
  · dsimp only
    split
    · exact Function.update_self _ _ _
    · rename_i hsame
      exact (not_ne_iff.mp hsame).symm
  · unfold sentTo
    dsimp only
    split
    · rw [List.filter_append, List.filter_cons_of_pos, List.filter_nil]
      simp [quotaNotify_userId]
    · rfl

/-- A positive delta needs a handshake. -/
theorem hasHandshake_of_delta {a : Observation} {db : Db} (h : 0 < (a.deltaIn db).combined) :
    a.hasHandshake = true := by
  unfold Observation.deltaIn at h
  split at h
  · cases h
  · unfold Observation.delta at h
    cases hhandshake : a.hasHandshake with
    | true =>
        rfl
    | false =>
        rw [hhandshake] at h
        cases h

/-- The record of a step that the account does not see. -/
structure View.Idle (v v' : View) : Prop where
  tier : v'.tier = v.tier
  sent : v'.sent = v.sent
  totals : v'.totals = v.totals
  window : (v'.current = v.current ∧ v'.cycle = v.cycle) ∨ later v.cycle v'.cycle

theorem View.Idle.refl (v : View) : v.Idle v := ⟨rfl, rfl, rfl, Or.inl ⟨rfl, rfl⟩⟩

/-- One total is accounted. -/
structure View.Books (userId : Uuid) (cap : Int) (v : View) (b : Int × Option Int) (v' : View) :
    Prop where
  opened : upTo b.2 b.2
  window : (b.2 = v.cycle ∧ v.current < b.1) ∨ later v.cycle b.2
  view : v' = v.book userId cap b

/-- What an event does to an account. -/
def ViewStep (userId : Uuid) (cap : Int) (s : NoticeState) (e : NoticeEvent) (v v' : View) :
    Prop :=
  match booking userId s e with
  | none => v.Idle v'
  | some b => v.Books userId cap b v'

theorem tick_shows (hcap : 0 < cap) (h : Shows userId cap s v) (c : Delivery) :
    ∃ v', Shows userId cap (noticeStep s (.tick c)) v' ∧
      ViewStep userId cap s (.tick c) v v' := by
  simp only [ViewStep, booking, noticeStep]
  rcases hdeliver : deliver s.db c with ⟨db', e | u⟩
  · -- a failed call changes nothing
    have hsame := Db.PeerUsageCheckpoints.deliver_error hdeliver
    subst hsame
    refine ⟨v, ⟨h.quota, h.tier, h.sent, h.totals⟩, ?_⟩
    rw [if_neg (by simp [Except.isOk, Except.toBool])]
    exact View.Idle.refl v
  · have haccount := Db.PeerUsageCheckpoints.deliver_ok hdeliver
    have hquota := account_quota haccount
    have hafter := account_quotaOf haccount userId
    dsimp only
    by_cases hown : c.observation.userId = userId
    · subst hown
      by_cases hpos : 0 < (c.observation.deltaIn s.db).combined
      · -- traffic of the user
        rw [if_pos ⟨rfl, hpos⟩, h.quota, Option.map_some] at hafter
        rw [if_pos ⟨rfl, hpos, rfl⟩, h.quota, Option.map_some]
        dsimp only at hafter ⊢
        rw [if_pos hpos, hafter, Option.map_some] at hquota
        have hcycle : cycleOf c.observation.userId db' =
            (rollMonth (c.observation.deltaIn s.db).combined c.observation.sampledAt v.current
              v.cycle).2 := by
          rw [cycleOf, hafter]
          rfl
        have hmoved : (u.serverRxDelta != 0 || u.serverTxDelta != 0) = true := by
          have hdelta := (account_eq_ok haccount).2.1
          rw [← hdelta] at hpos
          simp only [Db.PeerUsageCheckpoints.Delta.combined] at hpos
          simp only [Bool.or_eq_true, bne_iff_ne]
          omega
        rw [hcycle]
        generalize hb : rollMonth (c.observation.deltaIn s.db).combined c.observation.sampledAt
          v.current v.cycle = b at *
        obtain ⟨hdb, htotals, htier, hsent⟩ := announce_own hcap (hasHandshake_of_delta hpos) hmoved
          hquota b.2
          { s with
            db := db'
            totals := s.totals ++
              (u.userQuota.map fun q => ⟨c.observation.userId, b.2, q.1⟩).toList }
        have hwindow := rollMonth_cases c.observation.sampledAt v.current v.cycle hpos
        rw [hb] at hwindow
        refine ⟨v.book c.observation.userId cap b, ⟨?_, htier, ?_, ?_⟩, hwindow.1, hwindow.2, rfl⟩
        · rw [hdb]
          exact hafter
        · rw [hsent]
          unfold View.book
          rw [← h.tier, ← h.sent]
          rfl
        · unfold totalsOf
          rw [htotals, hquota]
          simp only [Option.map_some, Option.toList_some, List.filter_append]
          unfold View.book
          rw [← h.totals]
          simp [totalsOf]
      · -- an idle device of the user
        rw [if_neg (fun hc => hpos hc.2)] at hafter
        rw [if_neg hpos] at hquota
        rw [if_neg (fun hc => hpos hc.2.1), announce_none hquota, hquota]
        refine ⟨v, ⟨hafter.trans h.quota, h.tier, h.sent, ?_⟩, View.Idle.refl v⟩
        simpa [totalsOf] using h.totals
    · -- a device of another user
      rw [if_neg (fun hc => hown hc.1.symm)] at hafter
      rw [if_neg (fun hc => hown hc.1)]
      obtain ⟨hdb, htotals, htier, hsent⟩ := announce_other hown u
        (cycleOf c.observation.userId db')
        { s with
          db := db'
          totals := s.totals ++ (u.userQuota.map fun q =>
            ⟨c.observation.userId, cycleOf c.observation.userId db', q.1⟩).toList }
      refine ⟨v, ⟨?_, htier.trans h.tier, hsent.trans h.sent, ?_⟩, View.Idle.refl v⟩
      · rw [hdb]
        exact hafter.trans h.quota
      · have hnone : (u.userQuota.map fun q => (⟨c.observation.userId,
            cycleOf c.observation.userId db', q.1⟩ : Total)).toList.filter
              (fun t => t.userId == userId) = [] := by
          refine List.filter_eq_nil_iff.mpr ?_
          intro t ht
          obtain ⟨q, _, rfl⟩ := Option.map_eq_some_iff.mp (Option.mem_toList.mp ht)
          simpa using hown
        unfold totalsOf
        rw [htotals, List.filter_append, hnone, List.append_nil]
        exact h.totals

theorem sweep_shows (h : Shows userId cap s v) (now : Int) :
    ∃ v', Shows userId cap (noticeStep s (.sweep now)) v' ∧
      ViewStep userId cap s (.sweep now) v v' := by
  unfold noticeStep
  dsimp only
  split
  · rename_i n db' hreset
    have hafter := Db.resetDueUsers_quotaOf hreset userId
    rw [h.quota, Option.map_some] at hafter
    dsimp only at hafter
    by_cases hdue : Db.Quota.due now v.cycle = true
    · rw [if_pos hdue] at hafter
      refine ⟨{ v with current := 0, cycle := some (toTimestamp (firstOfNextMonth now)) },
        ⟨hafter, h.tier, h.sent, h.totals⟩, rfl, rfl, rfl, Or.inr (later_of_over ?_)⟩
      cases hcycle : v.cycle with
      | none =>
          rfl
      | some r =>
          rw [hcycle] at hdue
          exact hdue
    · rw [if_neg hdue] at hafter
      exact ⟨v, ⟨hafter, h.tier, h.sent, h.totals⟩, View.Idle.refl v⟩
  · exact ⟨v, h, View.Idle.refl v⟩

theorem other_shows (h : Shows userId cap s v) (db : Db) :
    ∃ v', Shows userId cap (noticeStep s (.other db)) v' ∧
      ViewStep userId cap s (.other db) v v' := by
  unfold noticeStep
  dsimp only
  split
  · rename_i hkept
    refine ⟨v, ⟨?_, h.tier, h.sent, h.totals⟩, View.Idle.refl v⟩
    -- the account is one of those whose quotas are kept
    have hquota := h.quota
    unfold quotaOf at hquota
    obtain ⟨row, hfound, _⟩ := Option.map_eq_some_iff.mp hquota
    have hid : row.id = userId := by
      have hpresent := List.find?_some hfound
      simp only [Db.Users.present, Bool.and_eq_true, beq_iff_eq] at hpresent
      exact hpresent.1
    have hrow := hkept row (List.mem_of_find?_eq_some hfound)
    rw [hid] at hrow
    exact hrow.trans h.quota
  · exact ⟨v, h, View.Idle.refl v⟩

theorem noticeStep_shows (hcap : 0 < cap) (h : Shows userId cap s v) (e : NoticeEvent) :
    ∃ v', Shows userId cap (noticeStep s e) v' ∧ ViewStep userId cap s e v v' := by
  cases e with
  | tick c =>
      exact tick_shows hcap h c
  | sweep now =>
      exact sweep_shows h now
  | other db =>
      exact other_shows h db

end View

section Tracking

/-- The tier that a notice announces. -/
def NotifyLevel.tier : NotifyLevel → Nat
  | .warning => 1
  | .error => 2

variable {userId : Uuid} {cap : Int} {s : NoticeState} {v v' : View} {b : Int × Option Int}

theorem quotaNotify_level {tier : Nat} (hpos : 0 < tier) (hle : tier ≤ 2) :
    (quotaNotify userId tier).level.tier = tier := by
  unfold quotaNotify
  split
  · exact Nat.le_antisymm ‹_› hle
  · simp only [NotifyLevel.tier]
    omega

/-- The remembered tier is that of the present cycle once a total of the cycle was
accounted, and it is at least that of every notice of the cycle. -/
structure Tracked (cap : Int) (v : View) : Prop where
  bounded : v.tier ≤ 2
  past : ∀ t ∈ v.totals, upTo t.cycle v.cycle
  sent : ∀ n ∈ v.sent, ∃ t ∈ v.totals, t.cycle = n.cycle
  current : (∃ t ∈ v.totals, t.cycle = v.cycle) →
    v.tier = tierOf v.current cap ∧ ∃ t ∈ v.totals, t.cycle = v.cycle ∧ t.bytes = v.current
  announced : ∀ n ∈ v.sent, n.cycle = v.cycle → n.notify.level.tier ≤ v.tier

/-- No total of a later cycle has been accounted. -/
theorem Tracked.not_later {c : Option Int} (h : Tracked cap v) (hlater : later v.cycle c) :
    ∀ t ∈ v.totals, t.cycle ≠ c := by
  intro t ht
  exact (upTo_later (h.past t ht) hlater).2

theorem Tracked.idle (h : Tracked cap v) (hidle : v.Idle v') : Tracked cap v' := by
  obtain ⟨htier, hsent, htotals, hwindow⟩ := hidle
  rcases hwindow with ⟨hcurrent, hcycle⟩ | hlater
  · exact ⟨by rw [htier]; exact h.bounded, by rw [htotals, hcycle]; exact h.past,
      by rw [hsent, htotals]; exact h.sent,
      by rw [htotals, hcycle, htier, hcurrent]; exact h.current,
      by rw [hsent, hcycle, htier]; exact h.announced⟩
  · have hnone := h.not_later hlater
    refine ⟨by rw [htier]; exact h.bounded, ?_, by rw [hsent, htotals]; exact h.sent, ?_, ?_⟩
    · intro t ht
      rw [htotals] at ht
      exact (upTo_later (h.past t ht) hlater).1
    · rintro ⟨t, ht, hcycle⟩
      rw [htotals] at ht
      exact absurd hcycle (hnone t ht)
    · intro n hn hcycle
      rw [hsent] at hn
      obtain ⟨t, ht, heq⟩ := h.sent n hn
      exact absurd (heq.trans hcycle) (hnone t ht)

/-- What is known of the cycle in which a total is going to be accounted. -/
theorem Tracked.cycle_cases (h : Tracked cap v)
    (hwindow : (b.2 = v.cycle ∧ v.current < b.1) ∨ later v.cycle b.2) :
    (∀ t ∈ v.totals, t.cycle ≠ b.2) ∨
      (b.2 = v.cycle ∧ v.tier = tierOf v.current cap ∧ v.tier ≤ tierOf b.1 cap ∧
        ∃ t ∈ v.totals, t.cycle = b.2 ∧ t.bytes = v.current) := by
  rcases hwindow with ⟨hcycle, hgrown⟩ | hlater
  · by_cases hany : ∃ t ∈ v.totals, t.cycle = v.cycle
    · obtain ⟨htier, t, ht, htc, htb⟩ := h.current hany
      refine Or.inr ⟨hcycle, htier, ?_, t, ht, htc.trans hcycle.symm, htb⟩
      rw [htier]
      exact tierOf_mono hgrown.le
    · left
      rw [hcycle]
      intro t ht heq
      exact hany ⟨t, ht, heq⟩
  · exact Or.inl (h.not_later hlater)

theorem mem_book_sent {n : Notice} :
    n ∈ (v.book userId cap b).sent ↔ n ∈ v.sent ∨
      (v.tier < tierOf b.1 cap ∧ n = ⟨quotaNotify userId (tierOf b.1 cap), b.2, b.1⟩) := by
  simp only [View.book]
  split
  · rename_i hlt
    simp [hlt]
  · rename_i hle
    simp [hle]

theorem mem_book_totals {t : Total} :
    t ∈ (v.book userId cap b).totals ↔ t ∈ v.totals ∨ t = ⟨userId, b.2, b.1⟩ := by
  simp [View.book]

/-- A notice of the cycle announces no more than the tier of the new total. -/
theorem Tracked.announced_le (h : Tracked cap v)
    (hwindow : (b.2 = v.cycle ∧ v.current < b.1) ∨ later v.cycle b.2) {n : Notice}
    (hn : n ∈ v.sent) (hcycle : n.cycle = b.2) :
    n.notify.level.tier ≤ v.tier ∧ v.tier ≤ tierOf b.1 cap := by
  obtain ⟨t, ht, heq⟩ := h.sent n hn
  rcases h.cycle_cases hwindow with hnone | ⟨hsame, _, hle, _⟩
  · exact absurd (heq.trans hcycle) (hnone t ht)
  · exact ⟨h.announced n hn (hcycle.trans hsame), hle⟩

theorem Tracked.book (h : Tracked cap v) (hopened : upTo b.2 b.2)
    (hwindow : (b.2 = v.cycle ∧ v.current < b.1) ∨ later v.cycle b.2) :
    Tracked cap (v.book userId cap b) := by
  refine ⟨tierOf_le_two _ _, ?_, ?_, ?_, ?_⟩
  · intro t ht
    rcases mem_book_totals.mp ht with hold | rfl
    · rcases hwindow with ⟨hcycle, _⟩ | hlater
      · change upTo t.cycle b.2
        rw [hcycle]
        exact h.past t hold
      · exact (upTo_later (h.past t hold) hlater).1
    · exact hopened
  · intro n hn
    rcases mem_book_sent.mp hn with hold | ⟨_, rfl⟩
    · obtain ⟨t, ht, heq⟩ := h.sent n hold
      exact ⟨t, mem_book_totals.mpr (Or.inl ht), heq⟩
    · exact ⟨_, mem_book_totals.mpr (Or.inr rfl), rfl⟩
  · intro _
    exact ⟨rfl, _, mem_book_totals.mpr (Or.inr rfl), rfl, rfl⟩
  · intro n hn hcycle
    rcases mem_book_sent.mp hn with hold | ⟨hlt, rfl⟩
    · obtain ⟨hle, hle'⟩ := h.announced_le hwindow hold hcycle
      exact hle.trans hle'
    · exact (quotaNotify_level (by omega) (tierOf_le_two _ _)).le

/-- A total may be accounted exactly when it meets neither defect. -/
theorem book_right_iff (hcap : 0 < cap) (h : Tracked cap v)
    (hright : NoticesRight cap v.sent v.totals)
    (hwindow : (b.2 = v.cycle ∧ v.current < b.1) ∨ later v.cycle b.2) :
    NoticesRight cap (v.book userId cap b).sent (v.book userId cap b).totals ↔
      ¬(v.tier = 2 ∧ cap ≤ b.1 ∧ ∀ t ∈ v.totals, t.cycle ≠ b.2) ∧
        ¬(v.tier = 0 ∧ 2 ^ 63 - 1 ≤ 10 * b.1 ∧ 10 * b.1 < 9 * cap) := by
  have hnew : ∀ hlt : v.tier < tierOf b.1 cap,
      (quotaNotify userId (tierOf b.1 cap)).level.tier = tierOf b.1 cap := fun hlt =>
    quotaNotify_level (by omega) (tierOf_le_two _ _)
  constructor
  · intro hafter
    constructor
    · -- the limit notice of the new cycle would have to be an old one
      rintro ⟨htwo, hreached, hfirst⟩
      obtain ⟨n, hn, hcycle, _⟩ := hafter.limit ⟨userId, b.2, b.1⟩
        (mem_book_totals.mpr (Or.inr rfl)) hreached
      rcases mem_book_sent.mp hn with hold | ⟨hlt, _⟩
      · obtain ⟨t, ht, heq⟩ := h.sent n hold
        exact hfirst t ht (heq.trans hcycle)
      · have hle := tierOf_le_two b.1 cap
        omega
    · rintro ⟨hzero, hsaturated, hbelow⟩
      have hone : tierOf b.1 cap = 1 :=
        (tierOf_eq_one_iff hcap).mpr ⟨by omega, Or.inr ⟨hsaturated, hbelow⟩⟩
      have hmem : (⟨quotaNotify userId (tierOf b.1 cap), b.2, b.1⟩ : Notice) ∈
          (v.book userId cap b).sent := mem_book_sent.mpr (Or.inr ⟨by omega, rfl⟩)
      have hlevel : (quotaNotify userId (tierOf b.1 cap)).level = .warning := by
        rw [hone]
        rfl
      have hexact := hafter.nineTenths _ hmem hlevel
      dsimp only at hexact
      omega
  · rintro ⟨hremembered, hsaturated⟩
    refine ⟨?_, ?_, ?_⟩
    · simp only [View.book]
      split
      · rename_i hlt
        refine List.pairwise_append.mpr ⟨hright.once, List.pairwise_singleton _ _, ?_⟩
        intro m hm n hn
        rw [List.mem_singleton.mp hn]
        rintro ⟨hcycle, hlevel⟩
        have hle := (h.announced_le hwindow hm hcycle).1
        dsimp only at hlevel
        rw [hlevel, hnew hlt] at hle
        omega
      · exact hright.once
    · intro t ht hreached
      rcases mem_book_totals.mp ht with hold | rfl
      · obtain ⟨n, hn, hrest⟩ := hright.limit t hold hreached
        exact ⟨n, mem_book_sent.mpr (Or.inl hn), hrest⟩
      · have htwo : tierOf b.1 cap = 2 := tierOf_eq_two_iff.mpr hreached
        by_cases hlt : v.tier < tierOf b.1 cap
        · refine ⟨_, mem_book_sent.mpr (Or.inr ⟨hlt, rfl⟩), rfl, ?_⟩
          dsimp only
          rw [htwo]
          rfl
        · -- the cap was reached earlier in the cycle
          rcases h.cycle_cases hwindow with hnone | ⟨_, htier, hle, t, ht, htc, htb⟩
          · have hle := h.bounded
            exact absurd ⟨by omega, hreached, hnone⟩ hremembered
          · have hold : cap ≤ t.bytes := by
              rw [htb]
              exact tierOf_eq_two_iff.mp (by omega)
            obtain ⟨n, hn, hcycle, hlevel⟩ := hright.limit t ht hold
            exact ⟨n, mem_book_sent.mpr (Or.inl hn), hcycle.trans htc, hlevel⟩
    · intro n hn hlevel
      rcases mem_book_sent.mp hn with hold | ⟨hlt, rfl⟩
      · exact hright.nineTenths n hold hlevel
      · have hone : tierOf b.1 cap = 1 := by
          rw [← hnew hlt]
          dsimp only at hlevel
          rw [hlevel]
          rfl
        have hexact := ((tierOf_eq_one_iff hcap).mp hone).2
        dsimp only
        omega

/-- The account is tracked in a state. -/
def TrackedIn (userId : Uuid) (cap : Int) (s : NoticeState) : Prop :=
  ∃ v, Shows userId cap s v ∧ Tracked cap v

theorem trackedIn_step (hcap : 0 < cap) (h : TrackedIn userId cap s) (e : NoticeEvent) :
    TrackedIn userId cap (noticeStep s e) := by
  obtain ⟨v, hshows, htracked⟩ := h
  obtain ⟨v', hshows', hstep⟩ := noticeStep_shows hcap hshows e
  refine ⟨v', hshows', ?_⟩
  unfold ViewStep at hstep
  split at hstep
  · exact htracked.idle hstep
  · rw [hstep.view]
    exact htracked.book hstep.opened hstep.window

/-- One event keeps the notices of the account right exactly when it is clear. -/
theorem right_step_iff (hcap : 0 < cap) (h : TrackedIn userId cap s)
    (hright : NoticesRight cap (sentTo userId s) (totalsOf userId s)) (e : NoticeEvent) :
    NoticesRight cap (sentTo userId (noticeStep s e)) (totalsOf userId (noticeStep s e)) ↔
      QuotaClear userId cap s e := by
  obtain ⟨v, hshows, htracked⟩ := h
  obtain ⟨v', hshows', hstep⟩ := noticeStep_shows hcap hshows e
  rw [hshows.sent, hshows.totals] at hright
  rw [hshows'.sent, hshows'.totals]
  unfold ViewStep at hstep
  unfold QuotaClear LimitForgotten Saturated
  rw [hshows.tier, hshows.totals]
  split at hstep
  · rename_i hbooking
    rw [hbooking, hstep.sent, hstep.totals]
    exact ⟨fun _ _ hb => absurd hb (by simp), fun _ => hright⟩
  · rename_i b hbooking
    rw [hbooking, hstep.view, book_right_iff hcap htracked hright hstep.window]
    simp only [Option.mem_some_iff, forall_eq']

/--
In every run of the worker from its start, with any ticks of any devices, sweeps
and other changes of the database, the notices of an account with a fixed positive
cap stay right exactly as long as no tick is the first of a cycle to account a
total, reaches the cap with it and finds the tier of an earlier reached cap still
remembered, and none finds no tier and a total whose tenfold saturates below nine
times the cap.
-/
theorem quota_notices_iff (userId : Uuid) (cap : Int) (hcap : 0 < cap) (db : Db)
    (haccount : ∃ q, quotaOf userId db = some (some cap, q)) (es : List NoticeEvent) :
    Always noticeStep (fun s => NoticesRight cap (sentTo userId s) (totalsOf userId s))
        (.boot db) es ↔
      Along noticeStep (QuotaClear userId cap) (.boot db) es := by
  obtain ⟨q, hquota⟩ := haccount
  refine @always_iff_along _ _ noticeStep (QuotaClear userId cap) (TrackedIn userId cap) _
    (fun s e h _ => trackedIn_step hcap h e)
    (fun s e h hright => right_step_iff hcap h hright e) _ es ?_ ?_
  · refine ⟨⟨q.1, q.2, 0, [], []⟩, ⟨hquota, rfl, rfl, rfl⟩, Nat.zero_le 2, ?_, ?_, ?_, ?_⟩
    · exact fun _ h => absurd h List.not_mem_nil
    · exact fun _ h => absurd h List.not_mem_nil
    · rintro ⟨_, h, _⟩
      exact absurd h List.not_mem_nil
    · exact fun _ h => absurd h List.not_mem_nil
  · exact ⟨List.Pairwise.nil, fun _ h => absurd h List.not_mem_nil,
      fun _ h => absurd h List.not_mem_nil⟩

end Tracking

section Sample

open Db.PeerUsageCheckpoints (ledgerTables sampleObservation)

/-- The tables of the ledger with a cap on the account. -/
def cappedTables (cap : Int) : Db.Tables :=
  { ledgerTables with
    users := ledgerTables.users.map fun u => { u with monthlyByteCap := some cap } }

def kilobyteDb : Db where
  toTables := cappedTables 1000
  valid := by decide

/-- A cap of 2⁶² bytes. -/
def hugeCapDb : Db where
  toTables := cappedTables (2 ^ 62)
  valid := by decide

/-- Ticks of the device at these instants around the end of May, with its counters. -/
def sampleTicks (ticks : List (Int × Int)) : List NoticeEvent :=
  ticks.map fun x => .tick ⟨sampleObservation (x.1 * 1000000000) x.2, true⟩

/-- A month in which the cap is reached step by step, and another one. -/
theorem quota_notices_sample :
    Always noticeStep (fun s => NoticesRight 1000 (sentTo 2 s) (totalsOf 2 s)) (.boot kilobyteDb)
      (sampleTicks [(-9000, 0), (-8000, 475), (-7000, 520), (1, 530), (2, 1020)] ++
        [.sweep (sampleObservation 3000000000 0).sampledAt]) :=
  (quota_notices_iff 2 1000 (by decide) kilobyteDb ⟨_, rfl⟩ _).mpr (by decide)

/-- The cap is reached in May, and by the first tick of June again: the account is
not told.  An account that has used a fifth of its 2⁶² bytes is warned. -/
theorem quota_notices_fail :
    ((∃ q, quotaOf 2 kilobyteDb = some (some 1000, q)) ∧
      ¬Always noticeStep (fun s => NoticesRight 1000 (sentTo 2 s) (totalsOf 2 s))
        (.boot kilobyteDb) (sampleTicks [(-9000, 0), (-8000, 600), (1, 1200)])) ∧
    ((∃ q, quotaOf 2 hugeCapDb = some (some (2 ^ 62), q)) ∧
      ¬Always noticeStep (fun s => NoticesRight (2 ^ 62) (sentTo 2 s) (totalsOf 2 s))
        (.boot hugeCapDb) (sampleTicks [(1, 0), (2, 480000000000000000)])) := by
  refine ⟨⟨⟨_, rfl⟩, ?_⟩, ⟨_, rfl⟩, ?_⟩
  · decide
  · decide

end Sample

end Worker
end ZeroVpn
