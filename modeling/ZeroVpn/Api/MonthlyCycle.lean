import ZeroVpn.Api.QuotaSweep
import ZeroVpn.Db.UsageLedger

/-!
# Monthly counters

`account` and the quota sweep both close a monthly window when its reset
instant lies strictly before the present one.  The documented cycle is
`[first_of_month, first_of_next_month)`: the boundary already belongs to the new
month, but both leave a window open that ends at the very instant (to the
microsecond) at which they run.

A `Meter` is what the two tables have in common, a counter with a window.  The
lemmas about meters say that its counter is the sum of one month;
`monthly_counters_follow_cycle` lifts them to runs of `account` calls and sweeps
that meet no window at its end.
-/

namespace ZeroVpn

open Library
open Library.Attempt (wp)

namespace Api

open Db (Uuid Device User toTimestamp firstOfMonth firstOfNextMonth monthOf)
open Db.PeerUsageCheckpoints (Delivery deliver delivered ledgerDb rollMonth sampleObservation)

/-- An accounted positive delta. -/
structure Entry where
  userId : Uuid
  deviceId : Uuid
  bytes : Int
  at_ : Int
  deriving DecidableEq, Repr

/-- The instant lies in the cycle that contains `t`. -/
def inCycle (t x : Int) : Bool := decide (firstOfMonth t ≤ x) && decide (x < firstOfNextMonth t)

theorem inCycle_eq (t x : Int) : inCycle t x = (monthOf x == monthOf t) := by
  rw [Bool.eq_iff_iff]
  simp only [inCycle, Bool.and_eq_true, decide_eq_true_eq, beq_iff_eq]
  exact Db.inCycle_iff

/-- The bytes of the selected entries within the cycle that contains `t`. -/
def cycleBytes (q : Entry → Bool) (t : Int) (ledger : List Entry) : Int :=
  columnSum (fun x => q x && inCycle t x.at_) Entry.bytes ledger

section Meter

variable {q : Entry → Bool} {ledger : List Entry} {T t current bytes : Int}
  {window : Option Int}

/-- The counter holds the selected entries of the month in which the window was
opened, and none is later. -/
def MeterOk (q : Entry → Bool) (ledger : List Entry) (T current : Int) : Option Int → Prop
  | none => (∀ x ∈ ledger, q x = false) ∧ current = 0
  | some r => ∃ opened, opened ≤ T ∧ r = toTimestamp (firstOfNextMonth opened) ∧
      (∀ x ∈ ledger, q x = true → monthOf x.at_ ≤ monthOf opened) ∧
      current = cycleBytes q opened ledger

/-- A window that is over was opened in an earlier month. -/
theorem month_lt_of_over {opened : Int} (h : toTimestamp (firstOfNextMonth opened) < toTimestamp t) :
    monthOf opened < monthOf t := by
  refine Db.monthOf_lt_iff.mpr ?_
  by_contra hlt
  have hle := Db.toTimestamp_mono (by omega : t ≤ firstOfNextMonth opened)
  omega

/-- A window that is open and does not end now was opened in this month. -/
theorem month_eq_of_open {opened : Int} (hle : opened ≤ t)
    (h : toTimestamp t < toTimestamp (firstOfNextMonth opened)) : monthOf t = monthOf opened := by
  have hmono := Db.monthOf_mono hle
  by_contra hne
  have hnext := Db.monthOf_lt_iff.mp (by omega : monthOf opened < monthOf t)
  have hstamp := Db.toTimestamp_mono hnext
  omega

theorem cycleBytes_congr {t t' : Int} (h : monthOf t = monthOf t') :
    cycleBytes q t ledger = cycleBytes q t' ledger := by
  unfold cycleBytes
  simp only [inCycle_eq, h]

/-- The cycle of a later month holds nothing yet. -/
theorem cycleBytes_later {opened : Int}
    (hentries : ∀ x ∈ ledger, q x = true → monthOf x.at_ ≤ monthOf opened)
    (h : monthOf opened < monthOf t) : cycleBytes q t ledger = 0 := by
  refine columnSum_eq_zero ?_
  intro x hx
  rw [inCycle_eq]
  cases hq : q x with
  | false =>
      rfl
  | true =>
      have hmonth := hentries x hx hq
      have hne : monthOf x.at_ ≠ monthOf t := by omega
      simpa using hne

theorem MeterOk.later (h : MeterOk q ledger T current window) (hT : T ≤ t) :
    MeterOk q ledger t current window := by
  cases window with
  | none =>
      exact h
  | some r =>
      obtain ⟨opened, hopened, hrest⟩ := h
      exact ⟨opened, by omega, hrest⟩

/-- What a meter shows at an instant at which its window does not end. -/
theorem MeterOk.shows (h : MeterOk q ledger T current window) (hT : T ≤ t)
    (hoff : window ≠ some (toTimestamp t)) :
    if Db.Quota.due t window then cycleBytes q t ledger = 0
    else current = cycleBytes q t ledger := by
  cases window with
  | none =>
      obtain ⟨hnone, hzero⟩ := h
      rw [if_neg (by simp [Db.Quota.due]), hzero]
      refine (columnSum_eq_zero ?_).symm
      intro x hx
      rw [hnone x hx, Bool.false_and]
  | some r =>
      obtain ⟨opened, hopened, rfl, hentries, hcurrent⟩ := h
      simp only [ne_eq, Option.some.injEq] at hoff
      simp only [Db.Quota.due, decide_eq_true_eq]
      split
      · rename_i hover
        exact cycleBytes_later hentries (month_lt_of_over hover)
      · rename_i hopen
        rw [hcurrent]
        exact cycleBytes_congr (month_eq_of_open (by omega) (by omega)).symm

/-- The sweep closes a window that is over. -/
theorem MeterOk.reset (h : MeterOk q ledger T current window)
    (hdue : Db.Quota.due t window = true) :
    MeterOk q ledger t 0 (some (toTimestamp (firstOfNextMonth t))) := by
  cases window with
  | none =>
      cases hdue
  | some r =>
      obtain ⟨opened, _, rfl, hentries, _⟩ := h
      have hlater := month_lt_of_over (of_decide_eq_true hdue)
      refine ⟨t, le_rfl, rfl, ?_, (cycleBytes_later hentries hlater).symm⟩
      intro x hx hq
      have hmonth := hentries x hx hq
      omega

/-- An entry of another meter. -/
theorem MeterOk.skip (h : MeterOk q ledger T current window) {x : Entry} (hx : q x = false) :
    MeterOk q (ledger ++ [x]) T current window := by
  have hbytes : ∀ t, cycleBytes q t (ledger ++ [x]) = cycleBytes q t ledger := by
    intro t
    unfold cycleBytes
    rw [columnSum_append, columnSum_cons, hx, columnSum_nil]
    simp
  cases window with
  | none =>
      refine ⟨?_, h.2⟩
      intro y hy
      rcases List.mem_append.mp hy with hold | hnew
      · exact h.1 y hold
      · rw [List.mem_singleton.mp hnew]
        exact hx
  | some r =>
      obtain ⟨opened, hopened, hr, hentries, hcurrent⟩ := h
      refine ⟨opened, hopened, hr, ?_, by rw [hbytes, hcurrent]⟩
      intro y hy hq
      rcases List.mem_append.mp hy with hold | hnew
      · exact hentries y hold hq
      · rw [List.mem_singleton.mp hnew, hx] at hq
        cases hq

/-- `account` books an entry on a meter whose window does not end now. -/
theorem MeterOk.book (h : MeterOk q ledger T current window) (hT : T ≤ t)
    (hoff : window ≠ some (toTimestamp t)) {x : Entry} (hx : q x = true) (hat : x.at_ = t) :
    MeterOk q (ledger ++ [x]) t (rollMonth x.bytes t current window).1
        (rollMonth x.bytes t current window).2 ∧
      (rollMonth x.bytes t current window).1 = cycleBytes q t (ledger ++ [x]) := by
  have hsum : cycleBytes q t (ledger ++ [x]) = cycleBytes q t ledger + x.bytes := by
    unfold cycleBytes
    rw [columnSum_append, columnSum_cons, hx, inCycle_eq, hat, columnSum_nil]
    simp
  have hopenAt : ∀ opened, (∀ y ∈ ledger, q y = true → monthOf y.at_ ≤ monthOf opened) →
      monthOf t = monthOf opened →
      ∀ y ∈ ledger ++ [x], q y = true → monthOf y.at_ ≤ monthOf opened := by
    intro opened hentries hmonth y hy hq
    rcases List.mem_append.mp hy with hold | hnew
    · exact hentries y hold hq
    · rw [List.mem_singleton.mp hnew, hat, hmonth]
  have hshows := h.shows hT hoff
  cases window with
  | none =>
      obtain ⟨hnone, hzero⟩ := h
      rw [if_neg (by simp [Db.Quota.due]), hzero] at hshows
      have hcount : x.bytes = cycleBytes q t (ledger ++ [x]) := by omega
      refine ⟨⟨t, le_rfl, rfl, hopenAt t ?_ rfl, hcount⟩, hcount⟩
      intro y hy hq
      rw [hnone y hy] at hq
      cases hq
  | some r =>
      obtain ⟨opened, hopened, rfl, hentries, hcurrent⟩ := h
      simp only [ne_eq, Option.some.injEq] at hoff
      cases hdue : Db.Quota.due t (some (toTimestamp (firstOfNextMonth opened))) with
      | true =>
          rw [hdue, if_pos rfl] at hshows
          have hroll : rollMonth x.bytes t current (some (toTimestamp (firstOfNextMonth opened))) =
              (x.bytes, some (toTimestamp (firstOfNextMonth t))) := if_pos hdue
          have hlater := month_lt_of_over (of_decide_eq_true hdue)
          have hcount : x.bytes = cycleBytes q t (ledger ++ [x]) := by omega
          rw [hroll]
          refine ⟨⟨t, le_rfl, rfl, hopenAt t ?_ rfl, hcount⟩, hcount⟩
          intro y hy hq
          exact (hentries y hy hq).trans hlater.le
      | false =>
          rw [hdue, if_neg Bool.false_ne_true] at hshows
          have hroll : rollMonth x.bytes t current (some (toTimestamp (firstOfNextMonth opened))) =
              (current + x.bytes, some (toTimestamp (firstOfNextMonth opened))) :=
            if_neg (Bool.not_eq_true _ ▸ hdue)
          have hopen := of_decide_eq_false hdue
          have hmonth := month_eq_of_open (by omega : opened ≤ t) (by omega)
          have hcount : current + x.bytes = cycleBytes q t (ledger ++ [x]) := by omega
          rw [hroll]
          refine ⟨⟨opened, by omega, rfl, hopenAt opened hentries hmonth, ?_⟩, hcount⟩
          rw [hcount]
          exact cycleBytes_congr hmonth

end Meter

/-- The API database and the positive deltas accounted so far. -/
structure Metered where
  sys : Sys
  ledger : List Entry

/-- A call of `account` or a run of the sweep. -/
inductive MeterEvent where
  | account (c : Delivery)
  | sweep (now : Int)

def MeterEvent.time : MeterEvent → Int
  | account c => c.observation.sampledAt
  | sweep now => now

/-- The positive delta that a call of `account` accounts. -/
def entryOf (db : Db) (c : Delivery) : Option Entry :=
  match (deliver db c).2 with
  | .ok u =>
      if 0 < u.serverRxDelta + u.serverTxDelta then
        some
          { userId := c.observation.userId
            deviceId := c.observation.deviceId
            bytes := u.serverRxDelta + u.serverTxDelta
            at_ := c.observation.sampledAt }
      else none
  | .error _ => none

def meterStep (m : Metered) : MeterEvent → Metered
  | .account c =>
      { sys := { m.sys with db := delivered m.sys.db c }
        ledger := m.ledger ++ (entryOf m.sys.db c).toList }
  | .sweep now => { m with sys := (Attempt.exec perform (Quota.runOnce now) m.sys).1 }

/-- No window that the event may close ends at its very instant. -/
def offBoundary (db : Db) : MeterEvent → Bool
  | .account c =>
      (db.users.all fun u => u.id != c.observation.userId ||
          u.quotaResetsAt != some (toTimestamp c.observation.sampledAt)) &&
        db.devices.all fun d => d.id != c.observation.deviceId ||
          d.quotaResetsAt != some (toTimestamp c.observation.sampledAt)
  | .sweep now =>
      (db.users.all fun u => u.quotaResetsAt != some (toTimestamp now)) &&
        db.devices.all fun d => d.quotaResetsAt != some (toTimestamp now)

/-- The counters that an event has to leave behind. -/
def CountersFollow (m : Metered) (e : MeterEvent) : Prop :=
  match e with
  | .account c =>
      entryOf m.sys.db c ≠ none →
        (∀ u ∈ (meterStep m e).sys.db.users, u.id = c.observation.userId →
          u.currentMonthBytes =
            cycleBytes (fun x => x.userId == u.id) e.time (meterStep m e).ledger) ∧
        ∀ d ∈ (meterStep m e).sys.db.devices, d.id = c.observation.deviceId →
          d.currentMonthBytes =
            cycleBytes (fun x => x.deviceId == d.id) e.time (meterStep m e).ledger
  | .sweep _ =>
      (∀ u ∈ (meterStep m e).sys.db.users,
        u.currentMonthBytes =
          cycleBytes (fun x => x.userId == u.id) e.time (meterStep m e).ledger) ∧
      ∀ d ∈ (meterStep m e).sys.db.devices,
        d.currentMonthBytes =
          cycleBytes (fun x => x.deviceId == d.id) e.time (meterStep m e).ledger

/-- No traffic has been accounted: the counters and windows have the defaults of
the schema. -/
def Fresh (db : Db) : Prop :=
  (∀ u ∈ db.users, u.currentMonthBytes = 0 ∧ u.quotaResetsAt = none) ∧
    ∀ d ∈ db.devices, d.currentMonthBytes = 0 ∧ d.quotaResetsAt = none

instance (db : Db) : Decidable (Fresh db) :=
  inferInstanceAs (Decidable ((∀ u ∈ db.users, _) ∧ ∀ d ∈ db.devices, _))

section Steps

/-- All meters are in order; a deleted user has none. -/
structure MeteredInv (T : Int) (m : Metered) : Prop where
  users : ∀ u ∈ m.sys.db.users,
    MeterOk (fun x => x.userId == u.id) m.ledger T u.currentMonthBytes u.quotaResetsAt
  deleted : ∀ u ∈ m.sys.db.users, u.deletedAt ≠ none → u.quotaResetsAt = none
  devices : ∀ d ∈ m.sys.db.devices,
    MeterOk (fun x => x.deviceId == d.id) m.ledger T d.currentMonthBytes d.quotaResetsAt

variable {T : Int} {m : Metered}

theorem meteredInv_fresh {s : Sys} (h : Fresh s.db) (T : Int) : MeteredInv T ⟨s, []⟩ := by
  refine ⟨?_, ?_, ?_⟩
  · intro u hu
    obtain ⟨hzero, hnone⟩ := h.1 u hu
    dsimp only
    rw [hzero, hnone]
    exact ⟨fun _ hx => absurd hx List.not_mem_nil, rfl⟩
  · intro u hu _
    exact (h.1 u hu).2
  · intro d hd
    obtain ⟨hzero, hnone⟩ := h.2 d hd
    dsimp only
    rw [hzero, hnone]
    exact ⟨fun _ hx => absurd hx List.not_mem_nil, rfl⟩

/-- What a sweep leaves behind. -/
theorem sweep_phases (now : Int) (s : Sys) :
    ∃ db₁ db₂, Phases now s.db db₁ db₂ (Attempt.exec perform (Quota.runOnce now) s).1.db := by
  obtain ⟨hstate, hresult⟩ := exec_observed_nil (Quota.runOnce now) s
  have hok : (Attempt.exec observed (Quota.runOnce now) ((s, []), [])).2 = .ok () := by
    rw [hresult]
    exact runOnce_succeeds now s
  obtain ⟨db₁, db₂, hphases, _⟩ := runOnce_phases now ((s, []), []) rfl hok
  rw [hstate] at hphases
  exact ⟨db₁, db₂, hphases⟩

/-- A meter after a sweep. -/
theorem MeterOk.swept {q : Entry → Bool} {ledger : List Entry} {t current : Int}
    {window : Option Int} (h : MeterOk q ledger T current window) (hT : T ≤ t)
    (hoff : window ≠ some (toTimestamp t)) :
    let due := Db.Quota.due t window
    MeterOk q ledger t (if due then 0 else current)
        (if due then some (toTimestamp (firstOfNextMonth t)) else window) ∧
      (if due then 0 else current) = cycleBytes q t ledger := by
  have hshows := h.shows hT hoff
  intro due
  cases hdue : due with
  | true =>
      rw [show Db.Quota.due t window = true from hdue, if_pos rfl] at hshows
      exact ⟨h.reset hdue, hshows.symm⟩
  | false =>
      rw [show Db.Quota.due t window = false from hdue, if_neg Bool.false_ne_true] at hshows
      exact ⟨h.later hT, hshows⟩

/-- One sweep. -/
theorem meter_sweep {now : Int} (h : MeteredInv T m) (hT : T ≤ now)
    (hoff : offBoundary m.sys.db (.sweep now) = true) :
    MeteredInv now (meterStep m (.sweep now)) ∧ CountersFollow m (.sweep now) := by
  obtain ⟨db₁, db₂, hphases⟩ := sweep_phases now m.sys
  simp only [offBoundary, Bool.and_eq_true, List.all_eq_true, bne_iff_ne] at hoff
  -- the rows after the sweep, as meters
  have husers : ∀ u' ∈ (meterStep m (.sweep now)).sys.db.users,
      ((MeterOk (fun x => x.userId == u'.id) m.ledger now u'.currentMonthBytes
          u'.quotaResetsAt) ∧
        (u'.deletedAt ≠ none → u'.quotaResetsAt = none)) ∧
        u'.currentMonthBytes = cycleBytes (fun x => x.userId == u'.id) now m.ledger := by
    intro u' hu'
    change u' ∈ (Attempt.exec perform (Quota.runOnce now) m.sys).1.db.users at hu'
    rw [hphases.users₃, hphases.users₁] at hu'
    obtain ⟨u, hu, rfl⟩ := mem_updateWhere.mp hu'
    obtain ⟨hmeter, hshows⟩ := (h.users u hu).swept hT (hoff.1 u hu)
    by_cases hdeleted : u.deletedAt = none
    · have hwhere : (Db.Quota.due now u.quotaResetsAt && u.deletedAt.isNone) =
          Db.Quota.due now u.quotaResetsAt := by
        rw [hdeleted]
        exact Bool.and_true _
      rw [hwhere]
      split
      · rename_i hdue
        rw [if_pos hdue, if_pos hdue] at hmeter
        rw [if_pos hdue] at hshows
        exact ⟨⟨hmeter, fun habs => absurd hdeleted habs⟩, hshows⟩
      · rename_i hdue
        rw [if_neg hdue, if_neg hdue] at hmeter
        rw [if_neg hdue] at hshows
        exact ⟨⟨hmeter, fun habs => absurd hdeleted habs⟩, hshows⟩
    · have hnone := h.deleted u hu hdeleted
      have hdue : ¬ Db.Quota.due now u.quotaResetsAt = true := by
        rw [hnone]
        exact Bool.false_ne_true
      rw [if_neg hdue, if_neg hdue] at hmeter
      rw [if_neg hdue] at hshows
      rw [if_neg (by simp [hdue])]
      exact ⟨⟨hmeter, fun _ => hnone⟩, hshows⟩
  have hdevices : ∀ d' ∈ (meterStep m (.sweep now)).sys.db.devices,
      MeterOk (fun x => x.deviceId == d'.id) m.ledger now d'.currentMonthBytes
          d'.quotaResetsAt ∧
        d'.currentMonthBytes = cycleBytes (fun x => x.deviceId == d'.id) now m.ledger := by
    intro d' hd'
    obtain ⟨_, _, d₁, hd₁, d₂, _, _, hd₂_eq, hd'_eq⟩ := hphases.row hd'
    rw [hd'_eq, pauseIf_kept, hd₂_eq, resumeIf_kept]
    dsimp only
    rw [hphases.devices₁] at hd₁
    obtain ⟨d, hd, rfl⟩ := mem_updateWhere.mp hd₁
    obtain ⟨hmeter, hshows⟩ := (h.devices d hd).swept hT (hoff.2 d hd)
    split
    · rename_i hdue
      rw [if_pos hdue, if_pos hdue] at hmeter
      rw [if_pos hdue] at hshows
      exact ⟨hmeter, hshows⟩
    · rename_i hdue
      rw [if_neg hdue, if_neg hdue] at hmeter
      rw [if_neg hdue] at hshows
      exact ⟨hmeter, hshows⟩
  exact ⟨⟨fun u hu => (husers u hu).1.1, fun u hu => (husers u hu).1.2,
    fun d hd => (hdevices d hd).1⟩, fun u hu => (husers u hu).2, fun d hd => (hdevices d hd).2⟩

/-- The ledger and the tables after a call of `account`. -/
theorem entryOf_cases (db : Db) (c : Delivery) :
    (entryOf db c = none ∧ (delivered db c).users = db.users ∧
        (delivered db c).devices.map (fun d => (d.id, d.currentMonthBytes, d.quotaResetsAt)) =
          db.devices.map fun d => (d.id, d.currentMonthBytes, d.quotaResetsAt)) ∨
      ∃ x, entryOf db c = some x ∧
        x.userId = c.observation.userId ∧ x.deviceId = c.observation.deviceId ∧
        x.at_ = c.observation.sampledAt ∧
        (∃ v ∈ db.users, Db.Users.present c.observation.userId v = true) ∧
        (∃ y : Db.PeerUsageCheckpoints.Delta, y.combined = x.bytes ∧ 0 < y.combined ∧
          (delivered db c).users = updateWhere (Db.Users.present c.observation.userId)
            (Db.PeerUsageCheckpoints.bookedUser c.observation y) db.users ∧
          (delivered db c).devices = updateWhere (fun d => d.id == c.observation.deviceId)
            (Db.PeerUsageCheckpoints.bookedDevice c.observation y) db.devices) := by
  unfold entryOf
  rcases Db.PeerUsageCheckpoints.delivered_cases db c with ⟨e, herror, hsame⟩ | ⟨u, hok, haccount⟩
  · left
    rw [herror, hsame]
    exact ⟨rfl, rfl, rfl⟩
  · obtain ⟨htables, hdelta, _⟩ := Db.PeerUsageCheckpoints.account_eq_ok haccount
    have hbytes : u.serverRxDelta + u.serverTxDelta = (c.observation.deltaIn db).combined := by
      rw [← hdelta]
      exact Int.add_comm _ _
    have husers := Db.PeerUsageCheckpoints.booked_users c.observation db
    have hdevices := Db.PeerUsageCheckpoints.booked_devices c.observation db
    rw [← htables] at husers hdevices
    rw [hok]
    dsimp only
    rw [hbytes]
    split
    · rename_i hpos
      rw [if_pos hpos] at husers
      exact Or.inr ⟨_, rfl, rfl, rfl, rfl, Db.PeerUsageCheckpoints.account_user haccount hpos,
        _, rfl, hpos, husers, hdevices⟩
    · rename_i hzero
      rw [if_neg hzero] at husers
      refine Or.inl ⟨rfl, ?_, ?_⟩
      · rw [husers]
        exact updateWhere_self fun _ _ _ => rfl
      · rw [hdevices]
        refine map_updateWhere (fun d => ?_) _
        simp only [Db.PeerUsageCheckpoints.bookedDevice, if_neg hzero]

/-- A call of `account` that accounts nothing. -/
theorem meter_idle {c : Delivery} (h : MeteredInv T m) (hT : T ≤ c.observation.sampledAt)
    (hentry : entryOf m.sys.db c = none) (husers : (delivered m.sys.db c).users = m.sys.db.users)
    (hdevices : (delivered m.sys.db c).devices.map
        (fun d => (d.id, d.currentMonthBytes, d.quotaResetsAt)) =
      m.sys.db.devices.map fun d => (d.id, d.currentMonthBytes, d.quotaResetsAt)) :
    MeteredInv c.observation.sampledAt (meterStep m (.account c)) := by
  have hledger : (meterStep m (.account c)).ledger = m.ledger := by
    simp only [meterStep, hentry, Option.toList_none, List.append_nil]
  refine ⟨?_, ?_, ?_⟩
  · intro u hu
    rw [hledger]
    change u ∈ (delivered m.sys.db c).users at hu
    rw [husers] at hu
    exact (h.users u hu).later hT
  · intro u hu
    change u ∈ (delivered m.sys.db c).users at hu
    rw [husers] at hu
    exact h.deleted u hu
  · intro d' hd'
    have hmem : (d'.id, d'.currentMonthBytes, d'.quotaResetsAt) ∈
        (delivered m.sys.db c).devices.map
          (fun d => (d.id, d.currentMonthBytes, d.quotaResetsAt)) :=
      List.mem_map.mpr ⟨d', hd', rfl⟩
    rw [hdevices] at hmem
    obtain ⟨d, hd, heq⟩ := List.mem_map.mp hmem
    simp only [Prod.mk.injEq] at heq
    obtain ⟨hid, hbytes, hwindow⟩ := heq
    rw [hledger, ← hid, ← hbytes, ← hwindow]
    exact (h.devices d hd).later hT

/-- A call of `account` that accounts a positive delta. -/
theorem meter_book {c : Delivery} {x : Entry} {y : Db.PeerUsageCheckpoints.Delta}
    (h : MeteredInv T m) (hT : T ≤ c.observation.sampledAt)
    (hoff : offBoundary m.sys.db (.account c) = true)
    (hentry : entryOf m.sys.db c = some x) (huser : x.userId = c.observation.userId)
    (hdevice : x.deviceId = c.observation.deviceId) (hat : x.at_ = c.observation.sampledAt)
    (hpresent : ∃ v ∈ m.sys.db.users, Db.Users.present c.observation.userId v = true)
    (hbytes : y.combined = x.bytes) (hpos : 0 < y.combined)
    (husers : (delivered m.sys.db c).users = updateWhere (Db.Users.present c.observation.userId)
      (Db.PeerUsageCheckpoints.bookedUser c.observation y) m.sys.db.users)
    (hdevices : (delivered m.sys.db c).devices =
      updateWhere (fun d => d.id == c.observation.deviceId)
        (Db.PeerUsageCheckpoints.bookedDevice c.observation y) m.sys.db.devices) :
    MeteredInv c.observation.sampledAt (meterStep m (.account c)) ∧
      CountersFollow m (.account c) := by
  have hledger : (meterStep m (.account c)).ledger = m.ledger ++ [x] := by
    simp only [meterStep, hentry, Option.toList_some]
  simp only [offBoundary, Bool.and_eq_true, List.all_eq_true, Bool.or_eq_true, bne_iff_ne,
    ne_eq] at hoff
  have hrows : ∀ u' ∈ (meterStep m (.account c)).sys.db.users,
      (MeterOk (fun z => z.userId == u'.id) (m.ledger ++ [x]) c.observation.sampledAt
          u'.currentMonthBytes u'.quotaResetsAt ∧
        (u'.deletedAt ≠ none → u'.quotaResetsAt = none)) ∧
        (u'.id = c.observation.userId → u'.currentMonthBytes =
          cycleBytes (fun z => z.userId == u'.id) c.observation.sampledAt
            (m.ledger ++ [x])) := by
    intro u' hu'
    change u' ∈ (delivered m.sys.db c).users at hu'
    rw [husers] at hu'
    obtain ⟨u, hu, rfl⟩ := mem_updateWhere.mp hu'
    by_cases hid : u.id = c.observation.userId
    · -- the row of the user is the one that is booked
      obtain ⟨v, hv, hvp⟩ := hpresent
      have hvid : v.id = c.observation.userId := by
        simp only [Db.Users.present, Bool.and_eq_true, beq_iff_eq] at hvp
        exact hvp.1
      rw [m.sys.db.userId_unique hv hu (hvid.trans hid.symm)] at hvp
      have hwindow := (hoff.1 u hu).resolve_left (fun habs => habs hid)
      obtain ⟨hmeter, hshows⟩ := (h.users u hu).book hT hwindow (x := x)
        (by simp [huser, hid]) hat
      rw [if_pos hvp]
      simp only [Db.PeerUsageCheckpoints.bookedUser, hbytes]
      refine ⟨⟨hmeter, ?_⟩, fun _ => hshows⟩
      intro hdeleted
      simp only [Db.Users.present, Bool.and_eq_true, Option.isNone_iff_eq_none] at hvp
      exact absurd hvp.2 hdeleted
    · have hnot : ¬ Db.Users.present c.observation.userId u = true := by
        simp [Db.Users.present, hid]
      rw [if_neg hnot]
      refine ⟨⟨((h.users u hu).later hT).skip ?_, h.deleted u hu⟩, fun habs => absurd habs hid⟩
      rw [huser]
      simpa using fun habs => hid habs.symm
  have hrows' : ∀ d' ∈ (meterStep m (.account c)).sys.db.devices,
      MeterOk (fun z => z.deviceId == d'.id) (m.ledger ++ [x]) c.observation.sampledAt
          d'.currentMonthBytes d'.quotaResetsAt ∧
        (d'.id = c.observation.deviceId → d'.currentMonthBytes =
          cycleBytes (fun z => z.deviceId == d'.id) c.observation.sampledAt
            (m.ledger ++ [x])) := by
    intro d' hd'
    change d' ∈ (delivered m.sys.db c).devices at hd'
    rw [hdevices] at hd'
    obtain ⟨d, hd, rfl⟩ := mem_updateWhere.mp hd'
    by_cases hid : d.id = c.observation.deviceId
    · have hwindow := (hoff.2 d hd).resolve_left (fun habs => habs hid)
      obtain ⟨hmeter, hshows⟩ := (h.devices d hd).book hT hwindow (x := x)
        (by simp [hdevice, hid]) hat
      rw [if_pos (by simpa using hid)]
      rw [hbytes] at hpos
      simp only [Db.PeerUsageCheckpoints.bookedDevice, hbytes, if_pos hpos]
      exact ⟨hmeter, fun _ => hshows⟩
    · rw [if_neg (by simpa using hid)]
      refine ⟨((h.devices d hd).later hT).skip ?_, fun habs => absurd habs hid⟩
      rw [hdevice]
      simpa using fun habs => hid habs.symm
  refine ⟨⟨?_, ?_, ?_⟩, ?_⟩
  · intro u hu
    rw [hledger]
    exact (hrows u hu).1.1
  · intro u hu
    exact (hrows u hu).1.2
  · intro d hd
    rw [hledger]
    exact (hrows' d hd).1
  · intro _
    rw [hledger]
    exact ⟨fun u hu => (hrows u hu).2, fun d hd => (hrows' d hd).2⟩

/-- One event. -/
theorem meter_step {e : MeterEvent} (h : MeteredInv T m) (hT : T ≤ e.time)
    (hoff : offBoundary m.sys.db e = true) :
    MeteredInv e.time (meterStep m e) ∧ CountersFollow m e := by
  cases e with
  | sweep now =>
      exact meter_sweep h hT hoff
  | account c =>
      rcases entryOf_cases m.sys.db c with ⟨hentry, husers, hdevices⟩ |
        ⟨x, hentry, huser, hdevice, hat, hpresent, y, hbytes, hpos, husers, hdevices⟩
      · exact ⟨meter_idle h hT hentry husers hdevices, fun habs => absurd hentry habs⟩
      · exact meter_book h hT hoff hentry huser hdevice hat hpresent hbytes hpos husers hdevices

end Steps

section Main

/-- From a state in order on, the counters follow the cycle. -/
theorem counters_follow_from {T : Int} {m : Metered} {es : List MeterEvent}
    (h : MeteredInv T m) (hT : ∀ e ∈ es, T ≤ e.time)
    (htimes : (es.map MeterEvent.time).Pairwise (· ≤ ·))
    (hes : Along meterStep (fun m e => offBoundary m.sys.db e = true) m es) :
    Along meterStep CountersFollow m es := by
  induction es generalizing T m with
  | nil =>
      trivial
  | cons e es ih =>
      rw [List.map_cons, List.pairwise_cons] at htimes
      obtain ⟨hinv, hfollow⟩ := meter_step h (hT e (by simp)) hes.1
      refine ⟨hfollow, ih hinv ?_ htimes.2 hes.2⟩
      intro e' he'
      exact htimes.1 _ (List.mem_map_of_mem he')

/--
In every run of `account` calls and sweeps in the order of time in which no
event meets a window at its end, each sweep leaves all counters, and each call
that accounts traffic leaves the counters of its user and its device, at the sum
of the positive deltas of the present cycle.
-/
theorem monthly_counters_follow_cycle (s : Sys) (hfresh : Fresh s.db) (es : List MeterEvent)
    (htimes : (es.map MeterEvent.time).Pairwise (· ≤ ·))
    (hes : Along meterStep (fun m e => offBoundary m.sys.db e = true) ⟨s, []⟩ es) :
    Along meterStep CountersFollow ⟨s, []⟩ es := by
  cases es with
  | nil =>
      trivial
  | cons e es =>
      refine counters_follow_from (meteredInv_fresh hfresh e.time) ?_ htimes hes
      rw [List.map_cons, List.pairwise_cons] at htimes
      intro e' he'
      rcases List.mem_cons.mp he' with rfl | hrest
      · exact le_rfl
      · exact htimes.1 _ (List.mem_map_of_mem hrest)

/-- The first instant of 2026-06-01. -/
def sampleJune : Int := (sampleObservation 0 0).sampledAt

/-- Traffic of the device 20 in the last hours of May, and what follows. -/
def sampleMay (rest : List MeterEvent) : List MeterEvent :=
  .account ⟨sampleObservation (-7200000000000) 0, true⟩ ::
    .account ⟨sampleObservation (-3600000000000) 10, true⟩ :: rest

/-- A sweep in the last second of the month, one in the next month and more
traffic. -/
theorem monthly_counters_follow_cycle_sample :
    Along meterStep CountersFollow ⟨Sys.off ledgerDb, []⟩
      (sampleMay [.sweep (sampleJune - 1), .sweep (sampleJune + 1000),
        .account ⟨sampleObservation 2000000 15, true⟩]) :=
  monthly_counters_follow_cycle (Sys.off ledgerDb) (by decide) _ (by decide)
    (by decide)

/-- A sweep at the first instant of June leaves the bytes of May. -/
theorem boundary_sweep_keeps_last_month :
    Fresh (Sys.off ledgerDb).db ∧
      ((sampleMay [.sweep sampleJune]).map MeterEvent.time).Pairwise (· ≤ ·) ∧
      ¬Along meterStep CountersFollow ⟨Sys.off ledgerDb, []⟩ (sampleMay [.sweep sampleJune]) := by
  refine ⟨by decide, by decide, ?_⟩
  rintro ⟨_, _, ⟨_, hdevices⟩, _⟩
  revert hdevices
  decide

end Main

end Api
end ZeroVpn
