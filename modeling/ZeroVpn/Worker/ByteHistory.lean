import ZeroVpn.Db.UsageLedger
import ZeroVpn.Worker.Aggregator
import Mathlib.Algebra.Order.BigOperators.Group.List
import Mathlib.Algebra.Order.Group.Int

/-!
# Bandwidth history under aggregation and retention

The samples that `account` writes, the hour and day rows that the aggregator
sums them into, and the purge of old samples, as one machine.  The aggregator's
statements are events of their own, so that calls, purges, restarts and any
stretch of time may fall between two of them; the clock only moves forward.

Next to the tables the state keeps what the run has done: all bookings, the ones
that wait for a roll-up of their hour or day, the samples an hour row was last
summed from, and the last pass that went through.

* `Settled` is the state property: a closed hour or day has its sum;
* `PurgesSummed` says that a purge removes only samples inside their hour row;
* `InReach` is the condition on a run: no pass begins while a booking that waits
  is older than its look-back, no purge reaches a booking that waits, and no
  hourly statement is a day late.
-/

namespace ZeroVpn

open Library Db Db.Bandwidth
open Db.PeerUsageCheckpoints (Delivery Delta deliver delivered firstSample)

namespace Worker
namespace ByteHistory

/-- A pass of the aggregator that is under way. -/
structure Pass where
  now : Int
  remaining : List Rollup
  /-- Every statement of the pass so far went through. -/
  clean : Bool
  /-- The bookings since the pass began. -/
  since : List Sample

structure State where
  now : Int
  db : Db
  aggregates : List Aggregate
  pass : Option Pass
  /-- Everything that was ever booked. -/
  booked : List Sample
  /-- The bookings since the last roll-up of their hour. -/
  hourDue : List Sample
  /-- The bookings that are not in the row of their day. -/
  dayDue : List Sample
  /-- The samples that an hour row was last summed from. -/
  source : Uuid → Int → List Sample
  /-- The time of the last pass that went through. -/
  reviewed : Option Int
  /-- The bookings since that pass began. -/
  fresh : List Sample

inductive Event where
  | wait (elapsed : Nat)
  | account (call : Delivery)
  /-- The aggregator takes the time. -/
  | tick
  /-- The next statement of the pass. -/
  | statement (ok : Bool)
  /-- The retention statement, some time after its pass took the time. -/
  | purge (value : Option (Option Int)) (delay : Nat)
  | restart

/-- What a call of `account` adds to the samples. -/
def bookings (db : Db) (call : Delivery) : List Sample :=
  match (deliver db call).2 with
  | .ok u =>
      if 0 < (⟨u.serverRxDelta, u.serverTxDelta⟩ : Delta).combined then
        [firstSample call.observation ⟨u.serverRxDelta, u.serverTxDelta⟩]
      else []
  | .error _ => []

/-- A sample of `[lo, hi)`. -/
def within (lo hi : Int) : Sample → Bool :=
  during (fun _ => true) Sample.sampledAt lo hi

/-- The samples of a device in `[lo, hi)`. -/
def slice (samples : List Sample) (device : Uuid) (lo hi : Int) : List Sample :=
  samples.filter (during (fun b => b.deviceId == device) Sample.sampledAt lo hi)

def State.account (s : State) (call : Delivery) : State :=
  let new := bookings s.db call
  { s with
    db := delivered s.db call
    booked := s.booked ++ new
    hourDue := s.hourDue ++ new
    dayDue := s.dayDue ++ new
    fresh := s.fresh ++ new
    pass := s.pass.map fun p => { p with since := p.since ++ new } }

/-- A statement that goes through. -/
def State.rollup (s : State) : Rollup → State
  | .hourly start =>
      let lo := toTimestamp start
      let hi := toTimestamp (start + nanosPerHour)
      { s with
        aggregates := rollupHourly s.db start s.aggregates
        hourDue := s.hourDue.filter fun b => !within lo hi b
        source := fun d t =>
          if t = lo ∧ slice s.db.samples d lo hi ≠ [] then slice s.db.samples d lo hi
          else s.source d t }
  | .daily start =>
      let lo := toTimestamp start
      let hi := toTimestamp (start + nanosPerDay)
      { s with
        aggregates := rollupDaily start s.aggregates
        dayDue := (s.dayDue.filter fun b => !within lo hi b) ++ s.hourDue.filter (within lo hi) }
  | .deviceCandles _ _ => s
  | .serverCandles _ _ => s

/-- What is left of a pass; one whose statements all went through is recorded. -/
def State.leave (s : State) (p : Pass) : State :=
  if p.remaining = [] then
    { s with
      pass := none
      reviewed := if p.clean then some p.now else s.reviewed
      fresh := if p.clean then p.since else s.fresh }
  else { s with pass := some p }

def State.statement (s : State) (ok : Bool) : State :=
  match s.pass with
  | none => s
  | some p =>
      match p.remaining with
      | [] => s
      | q :: rest =>
          State.leave (if ok then s.rollup q else s)
            { p with remaining := rest, clean := p.clean && ok }

/-- `DELETE FROM bandwidth_samples WHERE sampled_at < cut`. -/
def purgeSamples (cut : Int) (db : Db) : Db where
  toTables := { db.toTables with samples := db.samples.filter fun b => decide (cut ≤ b.sampledAt) }
  valid :=
    { db.valid with
      samples_key := db.valid.samples_key.sublist (List.Sublist.map _ List.filter_sublist)
      samples_range := fun b hb => db.valid.samples_range b (List.mem_filter.mp hb).1 }

/-- The cutoff of a purge, if its window is bounded. -/
def State.purgeCutoff (s : State) (value : Option (Option Int)) (delay : Nat) : Option Int :=
  (windowDays value sampleRetentionDays).map (cutoff (s.now - delay))

def State.purge (s : State) (value : Option (Option Int)) (delay : Nat) : State :=
  match s.purgeCutoff value delay with
  | none => s
  | some cut => { s with db := purgeSamples cut s.db }

def step (s : State) : Event → State
  | .wait elapsed => { s with now := s.now + elapsed }
  | .account call => s.account call
  | .tick => { s with pass := some ⟨s.now, byteRollups s.now, true, []⟩ }
  | .statement ok => s.statement ok
  | .purge value delay => s.purge value delay
  | .restart => { s with pass := none }

/-- A first start on a database without samples. -/
def start (db : Db) (now : Int) : State where
  now := now
  db := db
  aggregates := []
  pass := none
  booked := []
  hourDue := []
  dayDue := []
  source := fun _ _ => []
  reviewed := none
  fresh := []

/-- The bytes of a device in the samples of an hour. -/
def hourBytes (samples : List Sample) (dir : Direction) (device : Uuid) (n : Int) : Int :=
  sampledBytes samples dir device (n * microsPerHour) (n * microsPerHour + microsPerHour)

/-- The bytes of a device in the samples of a day. -/
def dayBytes (samples : List Sample) (dir : Direction) (device : Uuid) (n : Int) : Int :=
  sampledBytes samples dir device (n * microsPerDay) (n * microsPerDay + microsPerDay)

/--
Every hour and every day that was over at the last pass that went through has
the sum of all its samples, unless one was booked since that pass began.
-/
def State.Settled (s : State) : Prop :=
  ∀ now, s.reviewed = some now → ∀ dir device n,
    (n * microsPerHour + microsPerHour ≤ now / 1000 →
      slice s.fresh device (n * microsPerHour) (n * microsPerHour + microsPerHour) = [] →
      bytesAt s.aggregates dir device .hour (n * microsPerHour) =
        hourBytes s.booked dir device n) ∧
    (n * microsPerDay + microsPerDay ≤ now / 1000 →
      slice s.fresh device (n * microsPerDay) (n * microsPerDay + microsPerDay) = [] →
      bytesAt s.aggregates dir device .day (n * microsPerDay) =
        dayBytes s.booked dir device n)

/-- The start of the hour of a sample. -/
def hourOf (b : Sample) : Int := b.sampledAt / microsPerHour * microsPerHour

/-- The bytes of a sample are inside the row of its hour. -/
def State.Summed (s : State) (b : Sample) : Prop :=
  ∃ row, rowAt Aggregate.key (b.deviceId, .hour, hourOf b) s.aggregates = some row ∧
    b ∈ s.source b.deviceId (hourOf b) ∧
    ∀ dir, row.bytes dir = ((s.source b.deviceId (hourOf b)).map (Sample.bytes dir)).sum

/-- A purge removes only samples whose bytes are inside the row of their hour. -/
def PurgesSummed (s : State) : Event → Prop
  | .purge value delay =>
      ∀ b ∈ s.db.samples, b ∉ (s.purge value delay).db.samples → s.Summed b
  | _ => True

/-- Nothing of `[lo, hi)` was purged. -/
def State.Whole (s : State) (lo hi : Int) : Prop :=
  ∀ dir device,
    sampledBytes s.db.samples dir device lo hi = sampledBytes s.booked dir device lo hi

/--
The condition on a run.  A pass begins while no booking that waits for its hour
(day) is older than the previous hour (day); an hourly statement finds its hour
as it was booked; a purge does not reach a booking that waits for its hour.
-/
def InReach (s : State) : Event → Prop
  | .tick =>
      (∀ b ∈ s.hourDue, toTimestamp (truncateToHour s.now - nanosPerHour) ≤ b.sampledAt) ∧
        ∀ b ∈ s.dayDue, toTimestamp (truncateToDay s.now - nanosPerDay) ≤ b.sampledAt
  | .statement true =>
      ∀ p start rest, s.pass = some p → p.remaining = .hourly start :: rest →
        s.Whole (toTimestamp start) (toTimestamp (start + nanosPerHour))
  | .purge value delay =>
      ∀ cut, s.purgeCutoff value delay = some cut → ∀ b ∈ s.hourDue, cut ≤ b.sampledAt
  | _ => True

section Sums

variable {l : List Sample} {dir : Direction} {device : Uuid} {lo hi : Int}

theorem mem_slice {b : Sample} :
    b ∈ slice l device lo hi ↔
      b ∈ l ∧ b.deviceId = device ∧ lo ≤ b.sampledAt ∧ b.sampledAt < hi := by
  unfold slice
  rw [List.mem_filter, during_iff, beq_iff_eq]

theorem within_iff {b : Sample} : within lo hi b = true ↔ lo ≤ b.sampledAt ∧ b.sampledAt < hi := by
  unfold within
  rw [during_iff]
  exact ⟨fun h => h.2, fun h => ⟨rfl, h⟩⟩

theorem sampledBytes_eq_sum :
    sampledBytes l dir device lo hi = ((slice l device lo hi).map (Sample.bytes dir)).sum := rfl

theorem sampledBytes_append (l' : List Sample) :
    sampledBytes (l ++ l') dir device lo hi =
      sampledBytes l dir device lo hi + sampledBytes l' dir device lo hi :=
  columnSum_append _ _ l l'

theorem sampledBytes_of_slice_nil (h : slice l device lo hi = []) :
    sampledBytes l dir device lo hi = 0 := by
  rw [sampledBytes_eq_sum, h]
  rfl

/-- Filtering does not matter for a slice that it keeps. -/
theorem slice_filter_keep {p : Sample → Bool}
    (h : ∀ b ∈ l, lo ≤ b.sampledAt → b.sampledAt < hi → p b = true) :
    slice (l.filter p) device lo hi = slice l device lo hi := by
  unfold slice
  rw [List.filter_filter]
  refine List.filter_congr ?_
  intro b hb
  rw [Bool.eq_iff_iff, Bool.and_eq_true, during_iff]
  constructor
  · intro hin
    exact hin.1
  · intro hin
    exact ⟨hin, h b hb hin.2.1 hin.2.2⟩

/-- A slice that the filter drops is empty. -/
theorem slice_filter_drop {p : Sample → Bool}
    (h : ∀ b ∈ l, lo ≤ b.sampledAt → b.sampledAt < hi → p b = false) :
    slice (l.filter p) device lo hi = [] := by
  rw [List.eq_nil_iff_forall_not_mem]
  intro b hb
  obtain ⟨hb, _, hlo, hhi⟩ := mem_slice.mp hb
  obtain ⟨hb, hp⟩ := List.mem_filter.mp hb
  rw [h b hb hlo hhi] at hp
  cases hp

/-- Bookings have bytes. -/
def Positive (l : List Sample) : Prop :=
  ∀ b ∈ l, 0 ≤ b.rxBytes ∧ 0 ≤ b.txBytes ∧ 0 < b.rxBytes + b.txBytes

/-- A slice without bytes has no bookings. -/
theorem slice_eq_nil_of_bytes (hpos : Positive l)
    (h : ∀ dir, sampledBytes l dir device lo hi = 0) : slice l device lo hi = [] := by
  have hrx := h .rx
  have htx := h .tx
  rw [sampledBytes_eq_sum] at hrx htx
  have hslice : Positive (slice l device lo hi) := fun b hb => hpos b (mem_slice.mp hb).1
  generalize slice l device lo hi = bs at hrx htx hslice ⊢
  have hnonneg : ∀ bs : List Sample, Positive bs →
      0 ≤ (bs.map (Sample.bytes .rx)).sum ∧ 0 ≤ (bs.map (Sample.bytes .tx)).sum := by
    intro bs hbs
    constructor
    · refine List.sum_nonneg ?_
      intro x hx
      obtain ⟨b, hb, rfl⟩ := List.mem_map.mp hx
      exact (hbs b hb).1
    · refine List.sum_nonneg ?_
      intro x hx
      obtain ⟨b, hb, rfl⟩ := List.mem_map.mp hx
      exact (hbs b hb).2.1
  cases bs with
  | nil =>
      rfl
  | cons b bs =>
      obtain ⟨hb, hbs⟩ := List.forall_mem_cons.mp hslice
      obtain ⟨hrest, hrest'⟩ := hnonneg bs hbs
      simp only [List.map_cons, List.sum_cons, Sample.bytes] at hrx htx
      omega

/-- The hours of a day. -/
theorem dayBytes_eq_hours (l : List Sample) (dir : Direction) (device : Uuid) (n : Int) :
    dayBytes l dir device n = ∑ i ∈ Finset.range 24, hourBytes l dir device (24 * n + i) := by
  have hwidth : 0 ≤ microsPerHour := by decide
  have hday : microsPerDay = (24 : Nat) * microsPerHour := rfl
  unfold dayBytes
  rw [hday]
  unfold sampledBytes
  rw [columnSum_slices _ _ _ _ _ hwidth]
  refine Finset.sum_congr rfl ?_
  intro i _
  have hlo : n * ((24 : Nat) * microsPerHour) + i * microsPerHour =
      (24 * n + i) * microsPerHour := by
    push_cast
    ring
  have hhi : n * ((24 : Nat) * microsPerHour) + (i + 1) * microsPerHour =
      (24 * n + i) * microsPerHour + microsPerHour := by
    push_cast
    ring
  rw [hlo, hhi]
  rfl

end Sums

/-- What every run keeps: rows and waiting bookings add up to what was booked. -/
structure Kept (s : State) : Prop where
  table : WellKept s.aggregates
  known : ∀ b ∈ s.db.samples, ∃ d ∈ s.db.devices, d.id = b.deviceId
  positive : Positive s.booked
  due : ∀ b ∈ s.hourDue, b ∈ s.booked
  hours : ∀ dir device n,
    bytesAt s.aggregates dir device .hour (n * microsPerHour) + hourBytes s.hourDue dir device n =
      hourBytes s.booked dir device n
  dayHours : ∀ device n, rowAt Aggregate.key (device, .day, n * microsPerDay) s.aggregates ≠ none →
    ∃ i < 24, rowAt Aggregate.key (device, .hour, (24 * n + (i : Nat)) * microsPerHour)
      s.aggregates ≠ none
  days : ∀ dir device n,
    bytesAt s.aggregates dir device .day (n * microsPerDay) + dayBytes s.dayDue dir device n =
      dayBytes s.booked dir device n
  summed : ∀ b ∈ s.db.samples,
    (∀ x ∈ s.hourDue, x.deviceId = b.deviceId → x.sampledAt ≠ b.sampledAt) → s.Summed b

section Hourly

variable {s : State} {n : Int}

theorem rollup_hourly (s : State) (n : Int) :
    s.rollup (.hourly (n * nanosPerHour)) =
      { s with
        aggregates := rollupHourly s.db (n * nanosPerHour) s.aggregates
        hourDue := s.hourDue.filter fun b =>
          !within (n * microsPerHour) (n * microsPerHour + microsPerHour) b
        source := fun d t =>
          if t = n * microsPerHour ∧
              slice s.db.samples d (n * microsPerHour) (n * microsPerHour + microsPerHour) ≠ [] then
            slice s.db.samples d (n * microsPerHour) (n * microsPerHour + microsPerHour)
          else s.source d t } := by
  simp only [State.rollup, toTimestamp_hours, toTimestamp_nextHour]

/-- A sample lies in one hour. -/
theorem hour_unique {m n t : Int} (hlo : m * microsPerHour ≤ t)
    (hhi : t < m * microsPerHour + microsPerHour) (hlo' : n * microsPerHour ≤ t)
    (hhi' : t < n * microsPerHour + microsPerHour) : m = n := by
  unfold microsPerHour at *
  omega

theorem hourDue_hourly_self (device : Uuid) :
    slice (s.rollup (.hourly (n * nanosPerHour))).hourDue device (n * microsPerHour)
      (n * microsPerHour + microsPerHour) = [] := by
  rw [rollup_hourly]
  refine slice_filter_drop ?_
  intro b _ hlo hhi
  rw [within_iff.mpr ⟨hlo, hhi⟩]
  rfl

theorem hourDue_hourly_other {m : Int} (hm : m ≠ n) (device : Uuid) :
    slice (s.rollup (.hourly (n * nanosPerHour))).hourDue device (m * microsPerHour)
        (m * microsPerHour + microsPerHour) =
      slice s.hourDue device (m * microsPerHour) (m * microsPerHour + microsPerHour) := by
  rw [rollup_hourly]
  refine slice_filter_keep ?_
  intro b _ hlo hhi
  rw [Bool.not_eq_true', Bool.eq_false_iff, ne_eq, within_iff]
  rintro ⟨hlo', hhi'⟩
  exact hm (hour_unique hlo hhi hlo' hhi')

/-- The row of the hour of a sample that the statement reads. -/
theorem Kept.rowAt_hourly (h : Kept s) {b : Sample} (hb : b ∈ s.db.samples)
    (hlo : n * microsPerHour ≤ b.sampledAt)
    (hhi : b.sampledAt < n * microsPerHour + microsPerHour) :
    ∃ row, rowAt Aggregate.key (b.deviceId, .hour, n * microsPerHour)
        (s.rollup (.hourly (n * nanosPerHour))).aggregates = some row ∧
      ∀ dir, row.bytes dir = hourBytes s.db.samples dir b.deviceId n := by
  rw [rollup_hourly]
  have hjoined : b ∈ joinedSamples s.db (n * microsPerHour) (n * microsPerHour + microsPerHour) :=
    mem_joinedSamples.mpr ⟨hb, h.known b hb, hlo, hhi⟩
  refine ⟨_, rowAt_rollupHourly hjoined s.aggregates, ?_⟩
  intro dir
  exact bytes_hourRow h.known dir b.deviceId _ _

/-- The row of any other key stays. -/
theorem rowAt_hourly_same {device : Uuid} {bucket : BucketKind} {t : Int}
    (hmiss : bucket = .hour → t = n * microsPerHour →
      slice s.db.samples device (n * microsPerHour) (n * microsPerHour + microsPerHour) = []) :
    rowAt Aggregate.key (device, bucket, t) (s.rollup (.hourly (n * nanosPerHour))).aggregates =
      rowAt Aggregate.key (device, bucket, t) s.aggregates := by
  rw [rollup_hourly]
  refine rowAt_rollupHourly_same ?_ s.aggregates
  rintro b hb heq
  obtain ⟨hb, _, hlo, hhi⟩ := mem_joinedSamples.mp hb
  obtain ⟨rfl, hbucket, htime⟩ := by simpa only [Prod.mk.injEq] using heq
  have hmem : b ∈ slice s.db.samples b.deviceId (n * microsPerHour)
      (n * microsPerHour + microsPerHour) := mem_slice.mpr ⟨hb, rfl, hlo, hhi⟩
  rw [hmiss hbucket.symm htime.symm] at hmem
  cases hmem

theorem Kept.hours_hourly (h : Kept s)
    (hwhole : s.Whole (n * microsPerHour) (n * microsPerHour + microsPerHour))
    (dir : Direction) (device : Uuid) (m : Int) :
    bytesAt (s.rollup (.hourly (n * nanosPerHour))).aggregates dir device .hour
          (m * microsPerHour) +
        hourBytes (s.rollup (.hourly (n * nanosPerHour))).hourDue dir device m =
      hourBytes s.booked dir device m := by
  by_cases hm : m = n
  · subst hm
    have hdue : hourBytes (s.rollup (.hourly (m * nanosPerHour))).hourDue dir device m = 0 :=
      sampledBytes_of_slice_nil (hourDue_hourly_self device)
    rw [hdue, Int.add_zero]
    by_cases hslice : slice s.db.samples device (m * microsPerHour)
        (m * microsPerHour + microsPerHour) = []
    · -- nothing is in the table, so nothing was booked and the row was empty before
      have hbooked : slice s.booked device (m * microsPerHour)
          (m * microsPerHour + microsPerHour) = [] := by
        refine slice_eq_nil_of_bytes h.positive ?_
        intro dir
        rw [← hwhole dir device]
        exact sampledBytes_of_slice_nil hslice
      have hwaiting : slice s.hourDue device (m * microsPerHour)
          (m * microsPerHour + microsPerHour) = [] := by
        rw [List.eq_nil_iff_forall_not_mem]
        intro b hb
        obtain ⟨hb, hin⟩ := mem_slice.mp hb
        have hmem := mem_slice.mpr ⟨h.due b hb, hin⟩
        rw [hbooked] at hmem
        cases hmem
      have hold := h.hours dir device m
      unfold hourBytes at hold ⊢
      rw [sampledBytes_of_slice_nil hwaiting, Int.add_zero] at hold
      rw [← hold]
      unfold bytesAt
      rw [rowAt_hourly_same fun _ _ => hslice]
    · obtain ⟨b, hb⟩ := List.exists_mem_of_ne_nil _ hslice
      obtain ⟨hmem, rfl, hlo, hhi⟩ := mem_slice.mp hb
      obtain ⟨row, hrow, hbytes⟩ := h.rowAt_hourly hmem hlo hhi
      unfold bytesAt
      rw [hrow, Option.map_some, Option.getD_some, hbytes]
      exact hwhole dir b.deviceId
  · have hdue : hourBytes (s.rollup (.hourly (n * nanosPerHour))).hourDue dir device m =
        hourBytes s.hourDue dir device m := by
      unfold hourBytes
      rw [sampledBytes_eq_sum, sampledBytes_eq_sum, hourDue_hourly_other hm device]
    have hne : m * microsPerHour ≠ n * microsPerHour := by
      unfold microsPerHour
      omega
    rw [hdue, ← h.hours dir device m]
    unfold bytesAt
    rw [rowAt_hourly_same fun _ heq => absurd heq hne]

/-- A row that is there stays there. -/
theorem rowAt_hourly_ne_none {k : Uuid × BucketKind × Int}
    (hrow : rowAt Aggregate.key k s.aggregates ≠ none) :
    rowAt Aggregate.key k (s.rollup (.hourly (n * nanosPerHour))).aggregates ≠ none := by
  rw [rollup_hourly]
  exact rowAt_overwrite_ne_none hrow

theorem hourOf_eq {b : Sample} (hlo : n * microsPerHour ≤ b.sampledAt)
    (hhi : b.sampledAt < n * microsPerHour + microsPerHour) : hourOf b = n * microsPerHour := by
  unfold hourOf microsPerHour at *
  omega

theorem Kept.summed_hourly (h : Kept s) {b : Sample} (hb : b ∈ s.db.samples)
    (hdue : ∀ x ∈ (s.rollup (.hourly (n * nanosPerHour))).hourDue,
      x.deviceId = b.deviceId → x.sampledAt ≠ b.sampledAt) :
    (s.rollup (.hourly (n * nanosPerHour))).Summed b := by
  by_cases hin : n * microsPerHour ≤ b.sampledAt ∧ b.sampledAt < n * microsPerHour + microsPerHour
  · obtain ⟨hlo, hhi⟩ := hin
    obtain ⟨row, hrow, hbytes⟩ := h.rowAt_hourly hb hlo hhi
    have hmem : b ∈ slice s.db.samples b.deviceId (n * microsPerHour)
        (n * microsPerHour + microsPerHour) := mem_slice.mpr ⟨hb, rfl, hlo, hhi⟩
    have hsource : (s.rollup (.hourly (n * nanosPerHour))).source b.deviceId
        (n * microsPerHour) = slice s.db.samples b.deviceId (n * microsPerHour)
        (n * microsPerHour + microsPerHour) := by
      rw [rollup_hourly]
      exact if_pos ⟨rfl, List.ne_nil_of_mem hmem⟩
    unfold State.Summed
    rw [hourOf_eq hlo hhi, hsource]
    exact ⟨row, hrow, hmem, hbytes⟩
  · -- the statement is about another hour
    have hhour : hourOf b ≠ n * microsPerHour := by
      unfold hourOf microsPerHour at *
      omega
    obtain ⟨row, hrow, hmem, hbytes⟩ := h.summed b hb (by
      intro x hx hdevice htime
      refine hdue x ?_ hdevice htime
      rw [rollup_hourly]
      refine List.mem_filter.mpr ⟨hx, ?_⟩
      rw [Bool.not_eq_true', Bool.eq_false_iff, ne_eq, within_iff, htime]
      exact hin)
    have hsource : (s.rollup (.hourly (n * nanosPerHour))).source b.deviceId (hourOf b) =
        s.source b.deviceId (hourOf b) := by
      rw [rollup_hourly]
      exact if_neg fun heq => hhour heq.1
    unfold State.Summed
    rw [hsource]
    refine ⟨row, ?_, hmem, hbytes⟩
    rw [rowAt_hourly_same fun _ heq => absurd heq hhour]
    exact hrow

/-- An hourly statement that finds its hour as it was booked. -/
theorem Kept.hourly (h : Kept s)
    (hwhole : s.Whole (n * microsPerHour) (n * microsPerHour + microsPerHour)) :
    Kept (s.rollup (.hourly (n * nanosPerHour))) where
  table := by
    rw [rollup_hourly]
    exact h.table.rollupHourly s.db n
  known := h.known
  positive := h.positive
  due := by
    rw [rollup_hourly]
    intro b hb
    exact h.due b (List.mem_filter.mp hb).1
  hours := h.hours_hourly hwhole
  dayHours := by
    intro device m hrow
    rw [rowAt_hourly_same fun hbucket => absurd hbucket (by decide)] at hrow
    obtain ⟨i, hi, hhour⟩ := h.dayHours device m hrow
    exact ⟨i, hi, rowAt_hourly_ne_none hhour⟩
  days := by
    intro dir device m
    have hday := h.days dir device m
    unfold bytesAt at hday ⊢
    rw [rowAt_hourly_same fun hbucket => absurd hbucket (by decide)]
    exact hday
  summed := fun _ hb hdue => h.summed_hourly hb hdue

end Hourly

section Daily

variable {s : State} {n : Int}

theorem rollup_daily (s : State) (n : Int) :
    s.rollup (.daily (n * nanosPerDay)) =
      { s with
        aggregates := rollupDaily (n * nanosPerDay) s.aggregates
        dayDue :=
          (s.dayDue.filter fun b =>
            !within (n * microsPerDay) (n * microsPerDay + microsPerDay) b) ++
          s.hourDue.filter (within (n * microsPerDay) (n * microsPerDay + microsPerDay)) } := by
  simp only [State.rollup, toTimestamp_days, toTimestamp_nextDay]

/-- A sample lies in one day. -/
theorem day_unique {m n t : Int} (hlo : m * microsPerDay ≤ t)
    (hhi : t < m * microsPerDay + microsPerDay) (hlo' : n * microsPerDay ≤ t)
    (hhi' : t < n * microsPerDay + microsPerDay) : m = n := by
  unfold microsPerDay microsPerHour at *
  omega

/-- After the statement the bookings that wait for a day are those that wait for
one of its hours. -/
theorem dayDue_daily_self (dir : Direction) (device : Uuid) :
    dayBytes (s.rollup (.daily (n * nanosPerDay))).dayDue dir device n =
      dayBytes s.hourDue dir device n := by
  rw [rollup_daily]
  unfold dayBytes
  have hold : slice (s.dayDue.filter fun b =>
      !within (n * microsPerDay) (n * microsPerDay + microsPerDay) b) device (n * microsPerDay)
      (n * microsPerDay + microsPerDay) = [] := by
    refine slice_filter_drop ?_
    intro b _ hlo hhi
    rw [within_iff.mpr ⟨hlo, hhi⟩]
    rfl
  have hnew : slice (s.hourDue.filter
      (within (n * microsPerDay) (n * microsPerDay + microsPerDay))) device (n * microsPerDay)
      (n * microsPerDay + microsPerDay) =
      slice s.hourDue device (n * microsPerDay) (n * microsPerDay + microsPerDay) := by
    refine slice_filter_keep ?_
    intro b _ hlo hhi
    exact within_iff.mpr ⟨hlo, hhi⟩
  rw [sampledBytes_append, sampledBytes_of_slice_nil hold, Int.zero_add, sampledBytes_eq_sum,
    sampledBytes_eq_sum, hnew]

theorem dayDue_daily_other {m : Int} (hm : m ≠ n) (dir : Direction) (device : Uuid) :
    dayBytes (s.rollup (.daily (n * nanosPerDay))).dayDue dir device m =
      dayBytes s.dayDue dir device m := by
  rw [rollup_daily]
  unfold dayBytes
  have hnot : ∀ b : Sample, m * microsPerDay ≤ b.sampledAt →
      b.sampledAt < m * microsPerDay + microsPerDay →
      within (n * microsPerDay) (n * microsPerDay + microsPerDay) b = false := by
    intro b hlo hhi
    rw [Bool.eq_false_iff, ne_eq, within_iff]
    rintro ⟨hlo', hhi'⟩
    exact hm (day_unique hlo hhi hlo' hhi')
  have hold : slice (s.dayDue.filter fun b =>
      !within (n * microsPerDay) (n * microsPerDay + microsPerDay) b) device (m * microsPerDay)
      (m * microsPerDay + microsPerDay) =
      slice s.dayDue device (m * microsPerDay) (m * microsPerDay + microsPerDay) := by
    refine slice_filter_keep ?_
    intro b _ hlo hhi
    rw [hnot b hlo hhi]
    rfl
  have hnew : slice (s.hourDue.filter
      (within (n * microsPerDay) (n * microsPerDay + microsPerDay))) device (m * microsPerDay)
      (m * microsPerDay + microsPerDay) = [] := by
    refine slice_filter_drop ?_
    intro b _ hlo hhi
    exact hnot b hlo hhi
  rw [sampledBytes_append, sampledBytes_of_slice_nil hnew, Int.add_zero, sampledBytes_eq_sum,
    sampledBytes_eq_sum, hold]

/-- The hour rows of a device that a daily statement reads. -/
theorem mem_hourRows_of_rowAt {aggregates : List Aggregate} {device : Uuid} {i : Nat} (hi : i < 24)
    (hrow : rowAt Aggregate.key (device, .hour, (24 * n + i) * microsPerHour) aggregates ≠ none) :
    ∃ r ∈ hourRows (n * microsPerDay) (n * microsPerDay + microsPerDay) aggregates,
      r.deviceId = device := by
  obtain ⟨r, hr⟩ := Option.ne_none_iff_exists'.mp hrow
  obtain ⟨hmem, hkey⟩ := rowAt_mem hr
  obtain ⟨hdevice, hbucket, hstart⟩ := by simpa only [Aggregate.key, Prod.mk.injEq] using hkey
  refine ⟨r, mem_hourRows.mpr ⟨hmem, hbucket, ?_, ?_⟩, hdevice⟩
  · rw [hstart]
    unfold microsPerDay microsPerHour
    omega
  · rw [hstart]
    unfold microsPerDay microsPerHour
    omega

theorem rowAt_of_mem_hourRows {aggregates : List Aggregate} (h : WellKept aggregates)
    {r : Aggregate}
    (hr : r ∈ hourRows (n * microsPerDay) (n * microsPerDay + microsPerDay) aggregates) :
    ∃ i < 24, rowAt Aggregate.key (r.deviceId, .hour, (24 * n + (i : Nat)) * microsPerHour)
      aggregates ≠ none := by
  obtain ⟨hmem, hbucket, hlo, hhi⟩ := mem_hourRows.mp hr
  obtain ⟨m, hm⟩ := h.aligned r hmem hbucket
  rw [hm] at hlo hhi
  unfold microsPerDay microsPerHour at hlo hhi
  refine ⟨(m - 24 * n).toNat, by omega, ?_⟩
  have hstart : (24 * n + ((m - 24 * n).toNat : Int)) * microsPerHour = r.bucketStart := by
    rw [hm, Int.toNat_of_nonneg (by omega)]
    ring
  rw [ne_eq, rowAt_eq_none, hstart, ← hbucket, not_not]
  exact List.mem_map.mpr ⟨r, hmem, rfl⟩

theorem rowAt_daily_same {device : Uuid} {bucket : BucketKind} {t : Int}
    (hmiss : bucket = .day → t = n * microsPerDay →
      ∀ r ∈ hourRows (n * microsPerDay) (n * microsPerDay + microsPerDay) s.aggregates,
        r.deviceId ≠ device) :
    rowAt Aggregate.key (device, bucket, t) (s.rollup (.daily (n * nanosPerDay))).aggregates =
      rowAt Aggregate.key (device, bucket, t) s.aggregates := by
  rw [rollup_daily]
  refine rowAt_rollupDaily_same ?_
  rintro r hr heq
  obtain ⟨hdevice, hbucket, htime⟩ := by simpa only [Prod.mk.injEq] using heq
  exact hmiss hbucket.symm htime.symm r hr hdevice

/-- The hours of a day and the bookings that wait for one add up. -/
theorem Kept.hours_of_day (h : Kept s) (dir : Direction) (device : Uuid) (n : Int) :
    (∑ i ∈ Finset.range 24, bytesAt s.aggregates dir device .hour ((24 * n + i) * microsPerHour)) +
        dayBytes s.hourDue dir device n =
      dayBytes s.booked dir device n := by
  rw [dayBytes_eq_hours, dayBytes_eq_hours, ← Finset.sum_add_distrib]
  refine Finset.sum_congr rfl ?_
  intro i _
  exact h.hours dir device (24 * n + i)

theorem Kept.days_daily (h : Kept s) (dir : Direction) (device : Uuid) (m : Int) :
    bytesAt (s.rollup (.daily (n * nanosPerDay))).aggregates dir device .day (m * microsPerDay) +
        dayBytes (s.rollup (.daily (n * nanosPerDay))).dayDue dir device m =
      dayBytes s.booked dir device m := by
  by_cases hm : m = n
  · subst hm
    rw [dayDue_daily_self, ← h.hours_of_day dir device m]
    congr 1
    by_cases hhit : ∃ r ∈ hourRows (m * microsPerDay) (m * microsPerDay + microsPerDay)
        s.aggregates, r.deviceId = device
    · obtain ⟨r, hr, rfl⟩ := hhit
      unfold bytesAt
      rw [rollup_daily, rowAt_rollupDaily hr, Option.map_some, Option.getD_some]
      exact bytes_dayRow h.table.key h.table.aligned dir r.deviceId _
    · -- without hour rows there is no day row either
      have hnone : rowAt Aggregate.key (device, .day, m * microsPerDay) s.aggregates = none := by
        by_contra hrow
        obtain ⟨i, hi, hhour⟩ := h.dayHours device m hrow
        exact hhit (mem_hourRows_of_rowAt hi hhour)
      have hzero : ∀ i ∈ Finset.range 24,
          bytesAt s.aggregates dir device .hour ((24 * m + i) * microsPerHour) = 0 := by
        intro i hi
        have hhour : rowAt Aggregate.key (device, .hour, (24 * m + i) * microsPerHour)
            s.aggregates = none := by
          by_contra hrow
          exact hhit (mem_hourRows_of_rowAt (Finset.mem_range.mp hi) hrow)
        unfold bytesAt
        rw [hhour]
        rfl
      rw [Finset.sum_eq_zero hzero]
      unfold bytesAt
      rw [rowAt_daily_same fun _ _ r hr hdevice => hhit ⟨r, hr, hdevice⟩, hnone]
      rfl
  · have hne : m * microsPerDay ≠ n * microsPerDay := by
      unfold microsPerDay microsPerHour
      omega
    rw [dayDue_daily_other hm, ← h.days dir device m]
    unfold bytesAt
    rw [rowAt_daily_same fun _ heq => absurd heq hne]

/-- A daily statement. -/
theorem Kept.daily (h : Kept s) : Kept (s.rollup (.daily (n * nanosPerDay))) where
  table := by
    rw [rollup_daily]
    exact h.table.rollupDaily n
  known := h.known
  positive := h.positive
  due := h.due
  hours := by
    intro dir device m
    have hhour := h.hours dir device m
    unfold bytesAt at hhour ⊢
    rw [rowAt_daily_same fun hbucket => absurd hbucket (by decide)]
    exact hhour
  dayHours := by
    intro device m hrow
    have hkeep : ∀ i < 24,
        rowAt Aggregate.key (device, .hour, (24 * m + (i : Nat)) * microsPerHour)
          s.aggregates ≠ none →
        rowAt Aggregate.key (device, .hour, (24 * m + (i : Nat)) * microsPerHour)
          (s.rollup (.daily (n * nanosPerDay))).aggregates ≠ none := by
      intro i _ hhour
      rw [rowAt_daily_same fun hbucket => absurd hbucket (by decide)]
      exact hhour
    by_cases hhit : m = n ∧
        ∃ r ∈ hourRows (n * microsPerDay) (n * microsPerDay + microsPerDay) s.aggregates,
          r.deviceId = device
    · obtain ⟨rfl, r, hr, rfl⟩ := hhit
      obtain ⟨i, hi, hhour⟩ := rowAt_of_mem_hourRows h.table hr
      exact ⟨i, hi, hkeep i hi hhour⟩
    · rw [rowAt_daily_same (by
        intro _ htime r hr hdevice
        refine hhit ⟨?_, r, hr, hdevice⟩
        unfold microsPerDay microsPerHour at htime
        omega)] at hrow
      obtain ⟨i, hi, hhour⟩ := h.dayHours device m hrow
      exact ⟨i, hi, hkeep i hi hhour⟩
  days := h.days_daily
  summed := by
    intro b hb hdue
    obtain ⟨row, hrow, hmem, hbytes⟩ := h.summed b hb hdue
    refine ⟨row, ?_, hmem, hbytes⟩
    rw [rowAt_daily_same fun hbucket => absurd hbucket (by decide)]
    exact hrow

end Daily

section Account

open Db.PeerUsageCheckpoints

variable {s : State}

/-- A call books nothing, or one sample with bytes for a device that exists. -/
theorem bookings_cases (db : Db) (call : Delivery) :
    (bookings db call = [] ∧ (delivered db call).samples = db.samples) ∨
      ∃ b, bookings db call = [b] ∧ Positive [b] ∧ (∃ d ∈ db.devices, d.id = b.deviceId) ∧
        ∃ merge : Sample → Sample,
          (∀ r, (merge r).deviceId = r.deviceId ∧ (merge r).sampledAt = r.sampledAt) ∧
          (delivered db call).samples =
            upsertRow (fun r => r.deviceId == b.deviceId && r.sampledAt == b.sampledAt) b merge
              db.samples := by
  rcases delivered_cases db call with ⟨e, herror, hsame⟩ | ⟨u, hok, haccount⟩
  · left
    unfold bookings
    rw [herror, hsame]
    exact ⟨rfl, rfl⟩
  · obtain ⟨htables, hdelta, ⟨hrx, htx⟩, hdevice⟩ := account_eq_ok haccount
    obtain ⟨hdrx, hdtx⟩ := deltaIn_nonneg hrx htx db
    have hnew : bookings db call =
        if 0 < (call.observation.deltaIn db).combined then
          [firstSample call.observation (call.observation.deltaIn db)] else [] := by
      unfold bookings
      rw [hok]
      simp only [hdelta]
    unfold Observation.booked at htables
    by_cases hpos : 0 < (call.observation.deltaIn db).combined
    · right
      rw [if_pos hpos] at hnew htables
      refine ⟨_, hnew, ?_, hdevice, addSample (call.observation.deltaIn db),
        fun _ => ⟨rfl, rfl⟩, ?_⟩
      · intro b hb
        rw [List.mem_singleton.mp hb]
        exact ⟨hdtx, hdrx, hpos⟩
      · rw [htables]
        rfl
    · left
      rw [if_neg hpos] at hnew htables
      refine ⟨hnew, ?_⟩
      rw [htables]

/-- The devices stay. -/
theorem delivered_devices (db : Db) (call : Delivery) {id : Uuid}
    (h : ∃ d ∈ db.devices, d.id = id) : ∃ d ∈ (delivered db call).devices, d.id = id := by
  rcases delivered_cases db call with ⟨e, _, hsame⟩ | ⟨u, _, haccount⟩
  · rw [hsame]
    exact h
  · obtain ⟨htables, _⟩ := account_eq_ok haccount
    have hdevices : (delivered db call).devices =
        updateWhere (fun d => d.id == call.observation.deviceId)
          (bookedDevice call.observation (call.observation.deltaIn db)) db.devices := by
      rw [htables]
      unfold Observation.booked
      split
      · rfl
      · rfl
    obtain ⟨d, hd, hid⟩ := h
    rw [hdevices]
    refine ⟨_, mem_updateWhere.mpr ⟨d, hd, rfl⟩, ?_⟩
    split
    · exact hid
    · exact hid

/-- A sample after a call is an old one or has the key of the booking. -/
theorem mem_delivered {db : Db} {call : Delivery} {r : Sample}
    (hr : r ∈ (delivered db call).samples) :
    (r ∈ db.samples) ∨
      ∃ b ∈ bookings db call, b.deviceId = r.deviceId ∧ b.sampledAt = r.sampledAt := by
  rcases bookings_cases db call with ⟨_, hsame⟩ | ⟨b, hnew, _, _, merge, hmerge, hsamples⟩
  · rw [hsame] at hr
    exact Or.inl hr
  · rw [hsamples] at hr
    have hkey : ∀ r : Sample, (r.deviceId == b.deviceId && r.sampledAt == b.sampledAt) = true →
        b.deviceId = r.deviceId ∧ b.sampledAt = r.sampledAt := by
      intro r h
      rw [Bool.and_eq_true, beq_iff_eq, beq_iff_eq] at h
      exact ⟨h.1.symm, h.2.symm⟩
    unfold upsertRow at hr
    split at hr
    · obtain ⟨r₀, hr₀, rfl⟩ := mem_updateWhere.mp hr
      split
      · rename_i hp
        right
        rw [hnew]
        refine ⟨b, List.mem_singleton_self b, ?_⟩
        rw [(hmerge r₀).1, (hmerge r₀).2]
        exact hkey r₀ hp
      · exact Or.inl hr₀
    · rcases List.mem_append.mp hr with hr | hr
      · exact Or.inl hr
      · rw [List.mem_singleton.mp hr, hnew]
        exact Or.inr ⟨b, List.mem_singleton_self b, rfl, rfl⟩

theorem bookings_positive (db : Db) (call : Delivery) : Positive (bookings db call) := by
  rcases bookings_cases db call with ⟨hnew, _⟩ | ⟨b, hnew, hpos, _⟩
  · rw [hnew]
    intro b hb
    cases hb
  · rw [hnew]
    exact hpos

theorem bookings_device {db : Db} {call : Delivery} {b : Sample} (hb : b ∈ bookings db call) :
    ∃ d ∈ db.devices, d.id = b.deviceId := by
  rcases bookings_cases db call with ⟨hnew, _⟩ | ⟨b', hnew, _, hdevice, _⟩
  · rw [hnew] at hb
    cases hb
  · rw [hnew] at hb
    rw [List.mem_singleton.mp hb]
    exact hdevice

/-- A call of `account`. -/
theorem Kept.account (h : Kept s) (call : Delivery) : Kept (s.account call) where
  table := h.table
  known := by
    intro r hr
    refine delivered_devices s.db call ?_
    rcases mem_delivered hr with hold | ⟨b, hb, hdevice, _⟩
    · exact h.known r hold
    · rw [← hdevice]
      exact bookings_device hb
  positive := by
    intro b hb
    rcases List.mem_append.mp hb with hb | hb
    · exact h.positive b hb
    · exact bookings_positive s.db call b hb
  due := by
    intro b hb
    rcases List.mem_append.mp hb with hb | hb
    · exact List.mem_append_left _ (h.due b hb)
    · exact List.mem_append_right _ hb
  hours := by
    intro dir device n
    have hold := h.hours dir device n
    unfold hourBytes at hold ⊢
    simp only [State.account]
    rw [sampledBytes_append, sampledBytes_append, ← hold]
    omega
  dayHours := h.dayHours
  days := by
    intro dir device n
    have hold := h.days dir device n
    unfold dayBytes at hold ⊢
    simp only [State.account]
    rw [sampledBytes_append, sampledBytes_append, ← hold]
    omega
  summed := by
    intro r hr hdue
    rcases mem_delivered hr with hold | ⟨b, hb, hdevice, htime⟩
    · exact h.summed r hold fun x hx => hdue x (List.mem_append_left _ hx)
    · exact absurd htime (hdue b (List.mem_append_right _ hb) hdevice)

end Account

/-- A purge. -/
theorem Kept.purge {s : State} (h : Kept s) (value : Option (Option Int)) (delay : Nat) :
    Kept (s.purge value delay) := by
  unfold State.purge
  split
  · exact h
  · exact
      { table := h.table
        known := fun b hb => h.known b (List.mem_filter.mp hb).1
        positive := h.positive
        due := h.due
        hours := h.hours
        dayHours := h.dayHours
        days := h.days
        summed := fun b hb => h.summed b (List.mem_filter.mp hb).1 }

/-- `Kept` says nothing about the clock and the passes. -/
theorem Kept.congr {s s' : State} (h : Kept s) (hdb : s'.db = s.db)
    (haggregates : s'.aggregates = s.aggregates) (hbooked : s'.booked = s.booked)
    (hhour : s'.hourDue = s.hourDue) (hday : s'.dayDue = s.dayDue)
    (hsource : s'.source = s.source) : Kept s' := by
  obtain ⟨now, db, aggregates, pass, booked, hourDue, dayDue, source, reviewed, fresh⟩ := s'
  subst hdb haggregates hbooked hhour hday hsource
  exact ⟨h.table, h.known, h.positive, h.due, h.hours, h.dayHours, h.days, h.summed⟩

theorem Kept.leave {s : State} (h : Kept s) (p : Pass) : Kept (s.leave p) := by
  unfold State.leave
  split
  · exact h.congr rfl rfl rfl rfl rfl rfl
  · exact h.congr rfl rfl rfl rfl rfl rfl

section Timely

variable {s : State} {now : Int} {remaining remaining' : List Rollup} {since : List Sample}

/--
Every booking that waits was made `since`, lies in an hour (day) that was not
over at `now`, or in one that is still to be rolled up.
-/
structure Covered (now : Int) (remaining : List Rollup) (since : List Sample) (s : State) :
    Prop where
  hour : ∀ b ∈ s.hourDue, b ∈ since ∨ toTimestamp (truncateToHour now) ≤ b.sampledAt ∨
    ∃ start, .hourly start ∈ remaining ∧
      within (toTimestamp start) (toTimestamp (start + nanosPerHour)) b = true
  day : ∀ b ∈ s.dayDue, b ∈ since ∨ toTimestamp (truncateToDay now) ≤ b.sampledAt ∨
    ∃ start, .daily start ∈ remaining ∧
      within (toTimestamp start) (toTimestamp (start + nanosPerDay)) b = true

theorem truncateToDay_le_truncateToHour (now : Int) :
    toTimestamp (truncateToDay now) ≤ toTimestamp (truncateToHour now) := by
  refine toTimestamp_mono ?_
  unfold truncateToDay truncateToHour nanosPerDay nanosPerHour
  omega

theorem Covered.account (h : Covered now remaining since s) (call : Delivery) :
    Covered now remaining (since ++ bookings s.db call) (s.account call) where
  hour := by
    intro b hb
    rcases List.mem_append.mp hb with hb | hb
    · rcases h.hour b hb with hsince | hrest
      · exact Or.inl (List.mem_append_left _ hsince)
      · exact Or.inr hrest
    · exact Or.inl (List.mem_append_right _ hb)
  day := by
    intro b hb
    rcases List.mem_append.mp hb with hb | hb
    · rcases h.day b hb with hsince | hrest
      · exact Or.inl (List.mem_append_left _ hsince)
      · exact Or.inr hrest
    · exact Or.inl (List.mem_append_right _ hb)

theorem Covered.hourly (h : Covered now remaining since s) {start : Int}
    (hremaining : ∀ q ∈ remaining, q = .hourly start ∨ q ∈ remaining') :
    Covered now remaining' since (s.rollup (.hourly start)) where
  hour := by
    intro b hb
    obtain ⟨hb, hout⟩ := List.mem_filter.mp hb
    rcases h.hour b hb with hsince | hopen | ⟨start', hmem, hin⟩
    · exact Or.inl hsince
    · exact Or.inr (Or.inl hopen)
    · rcases hremaining _ hmem with heq | hmem
      · cases heq
        rw [hin] at hout
        cases hout
      · exact Or.inr (Or.inr ⟨start', hmem, hin⟩)
  day := by
    intro b hb
    rcases h.day b hb with hsince | hopen | ⟨start', hmem, hin⟩
    · exact Or.inl hsince
    · exact Or.inr (Or.inl hopen)
    · rcases hremaining _ hmem with heq | hmem
      · cases heq
      · exact Or.inr (Or.inr ⟨start', hmem, hin⟩)

/-- The hours come first: a daily statement finds no hourly one behind it. -/
theorem Covered.daily (h : Covered now remaining since s) {start : Int}
    (hremaining : ∀ q ∈ remaining, q = .daily start ∨ q ∈ remaining')
    (hhours : ∀ start', .hourly start' ∉ remaining) :
    Covered now remaining' since (s.rollup (.daily start)) where
  hour := by
    intro b hb
    rcases h.hour b hb with hsince | hopen | ⟨start', hmem, _⟩
    · exact Or.inl hsince
    · exact Or.inr (Or.inl hopen)
    · exact absurd hmem (hhours start')
  day := by
    intro b hb
    rcases List.mem_append.mp hb with hb | hb
    · obtain ⟨hb, hout⟩ := List.mem_filter.mp hb
      rcases h.day b hb with hsince | hopen | ⟨start', hmem, hin⟩
      · exact Or.inl hsince
      · exact Or.inr (Or.inl hopen)
      · rcases hremaining _ hmem with heq | hmem
        · cases heq
          rw [hin] at hout
          cases hout
        · exact Or.inr (Or.inr ⟨start', hmem, hin⟩)
    · -- a booking that still waits for its hour now waits for its day
      rcases h.hour b (List.mem_filter.mp hb).1 with hsince | hopen | ⟨start', hmem, _⟩
      · exact Or.inl hsince
      · exact Or.inr (Or.inl (Int.le_trans (truncateToDay_le_truncateToHour now) hopen))
      · exact absurd hmem (hhours start')

/-- A daily statement of a pass is followed by daily ones only. -/
theorem hourly_not_mem {start start' : Int} {rest : List Rollup}
    (h : .daily start :: rest <:+ byteRollups now) : .hourly start' ∉ .daily start :: rest := by
  simp only [byteRollups, List.suffix_cons_iff, List.suffix_nil, List.cons.injEq, reduceCtorEq,
    false_and, or_false, false_or, Rollup.daily.injEq] at h
  rcases h with ⟨_, rfl⟩ | ⟨_, rfl⟩
  · simp
  · simp

/-- The waiting bookings are covered by the last pass and by the present one. -/
structure Timely (s : State) : Prop where
  reviewed : ∀ now, s.reviewed = some now → Covered now [] s.fresh s
  order : ∀ p, s.pass = some p → p.remaining <:+ byteRollups p.now
  pass : ∀ p, s.pass = some p → p.clean = true → Covered p.now p.remaining p.since s

theorem Timely.leave {p : Pass} (hreviewed : ∀ now, s.reviewed = some now → Covered now [] s.fresh s)
    (horder : p.remaining <:+ byteRollups p.now)
    (hpass : p.clean = true → Covered p.now p.remaining p.since s) : Timely (s.leave p) := by
  unfold State.leave
  split
  · rename_i hlast
    refine ⟨?_, fun _ h => (by cases h), fun _ h => (by cases h)⟩
    intro now hnow
    by_cases hclean : p.clean = true
    · rw [if_pos hclean] at hnow
      cases hnow
      have hcovered := hpass hclean
      rw [hlast] at hcovered
      simp only [if_pos hclean]
      exact ⟨hcovered.hour, hcovered.day⟩
    · rw [if_neg hclean] at hnow
      have hcovered := hreviewed now hnow
      simp only [if_neg hclean]
      exact ⟨hcovered.hour, hcovered.day⟩
  · refine ⟨?_, ?_, ?_⟩
    · intro now hnow
      have hcovered := hreviewed now hnow
      exact ⟨hcovered.hour, hcovered.day⟩
    · intro p' hp'
      cases hp'
      exact horder
    · intro p' hp' hclean
      cases hp'
      have hcovered := hpass hclean
      exact ⟨hcovered.hour, hcovered.day⟩

theorem statement_next {p : Pass} {q : Rollup} {rest : List Rollup} (hp : s.pass = some p)
    (hq : p.remaining = q :: rest) (ok : Bool) :
    s.statement ok =
      State.leave (if ok then s.rollup q else s)
        { p with remaining := rest, clean := p.clean && ok } := by
  simp only [State.statement, hp, hq]

/-- The next statement of a pass. -/
theorem statement_kept (h : Kept s) (ht : Timely s) {ok : Bool} (hreach : InReach s (.statement ok)) :
    Kept (s.statement ok) ∧ Timely (s.statement ok) := by
  cases hp : s.pass with
  | none =>
      have hidle : s.statement ok = s := by
        simp only [State.statement, hp]
      rw [hidle]
      exact ⟨h, ht⟩
  | some p =>
      cases hq : p.remaining with
      | nil =>
          have hidle : s.statement ok = s := by
            simp only [State.statement, hp, hq]
          rw [hidle]
          exact ⟨h, ht⟩
      | cons q rest =>
          rw [statement_next hp hq]
          have hsuffix := ht.order p hp
          rw [hq] at hsuffix
          have hrest : rest <:+ byteRollups p.now := (List.suffix_cons q rest).trans hsuffix
          have hremaining : ∀ q' ∈ p.remaining, q' = q ∨ q' ∈ rest := by
            intro q' hq'
            rw [hq] at hq'
            exact List.mem_cons.mp hq'
          cases ok with
          | false =>
              refine ⟨h.leave _, Timely.leave ht.reviewed hrest ?_⟩
              intro hclean
              rw [Bool.and_false] at hclean
              cases hclean
          | true =>
              have hclean : ∀ {c : Bool}, (c && true) = true → c = true := by
                intro c hc
                rwa [Bool.and_true] at hc
              rcases mem_byteRollups (hsuffix.subset (List.mem_cons_self)) with
                ⟨n, rfl⟩ | ⟨n, rfl⟩
              · have hwhole := hreach p _ rest hp hq
                rw [toTimestamp_hours, toTimestamp_nextHour] at hwhole
                refine ⟨(h.hourly hwhole).leave _, Timely.leave ?_ hrest ?_⟩
                · intro now hnow
                  exact (ht.reviewed now hnow).hourly fun _ hmem => Or.inr hmem
                · intro hc
                  exact (ht.pass p hp (hclean hc)).hourly hremaining
              · refine ⟨h.daily.leave _, Timely.leave ?_ hrest ?_⟩
                · intro now hnow
                  exact (ht.reviewed now hnow).daily (fun _ hmem => Or.inr hmem)
                    fun _ hmem => (by cases hmem)
                · intro hc
                  refine (ht.pass p hp (hclean hc)).daily hremaining ?_
                  intro start' hmem
                  rw [hq] at hmem
                  exact hourly_not_mem hsuffix hmem

/-- A pass that begins in reach covers the waiting bookings. -/
theorem covered_tick (hreach : InReach s .tick) : Covered s.now (byteRollups s.now) [] s where
  hour := by
    intro b hb
    have hlo := hreach.1 b hb
    right
    by_cases hopen : toTimestamp (truncateToHour s.now) ≤ b.sampledAt
    · exact Or.inl hopen
    · refine Or.inr ⟨truncateToHour s.now - nanosPerHour, by simp [byteRollups], ?_⟩
      rw [Int.sub_add_cancel]
      exact within_iff.mpr ⟨hlo, by omega⟩
  day := by
    intro b hb
    have hlo := hreach.2 b hb
    right
    by_cases hopen : toTimestamp (truncateToDay s.now) ≤ b.sampledAt
    · exact Or.inl hopen
    · refine Or.inr ⟨truncateToDay s.now - nanosPerDay, by simp [byteRollups], ?_⟩
      rw [Int.sub_add_cancel]
      exact within_iff.mpr ⟨hlo, by omega⟩

/-- One event of a run in reach. -/
theorem step_kept (s : State) (e : Event) (h : Kept s ∧ Timely s) (hreach : InReach s e) :
    Kept (step s e) ∧ Timely (step s e) := by
  obtain ⟨h, ht⟩ := h
  cases e with
  | wait elapsed =>
      refine ⟨h.congr rfl rfl rfl rfl rfl rfl, ?_, ht.order, ?_⟩
      · intro now hnow
        exact ⟨(ht.reviewed now hnow).hour, (ht.reviewed now hnow).day⟩
      · intro p hp hclean
        exact ⟨(ht.pass p hp hclean).hour, (ht.pass p hp hclean).day⟩
  | account call =>
      refine ⟨h.account call, ?_, ?_, ?_⟩
      · intro now hnow
        exact (ht.reviewed now hnow).account call
      · intro p hp
        obtain ⟨p₀, hp₀, rfl⟩ := Option.map_eq_some_iff.mp hp
        exact ht.order p₀ hp₀
      · intro p hp hclean
        obtain ⟨p₀, hp₀, rfl⟩ := Option.map_eq_some_iff.mp hp
        exact (ht.pass p₀ hp₀ hclean).account call
  | tick =>
      refine ⟨h.congr rfl rfl rfl rfl rfl rfl, ?_, ?_, ?_⟩
      · intro now hnow
        exact ⟨(ht.reviewed now hnow).hour, (ht.reviewed now hnow).day⟩
      · intro p hp
        cases hp
        exact List.suffix_rfl
      · intro p hp _
        cases hp
        exact ⟨(covered_tick hreach).hour, (covered_tick hreach).day⟩
  | statement ok =>
      exact statement_kept h ht hreach
  | purge value delay =>
      refine ⟨h.purge value delay, ?_⟩
      simp only [step, State.purge]
      split
      · exact ht
      · refine ⟨?_, ht.order, ?_⟩
        · intro now hnow
          exact ⟨(ht.reviewed now hnow).hour, (ht.reviewed now hnow).day⟩
        · intro p hp hclean
          exact ⟨(ht.pass p hp hclean).hour, (ht.pass p hp hclean).day⟩
  | restart =>
      refine ⟨h.congr rfl rfl rfl rfl rfl rfl, ?_, fun _ hp => (by cases hp),
        fun _ hp => (by cases hp)⟩
      intro now hnow
      exact ⟨(ht.reviewed now hnow).hour, (ht.reviewed now hnow).day⟩

/-- What the last pass covers has its sum. -/
theorem settled_of_kept (h : Kept s) (ht : Timely s) : s.Settled := by
  intro now hnow dir device n
  have hcovered := ht.reviewed now hnow
  constructor
  · intro hclosed hfresh
    have hdue : slice s.hourDue device (n * microsPerHour)
        (n * microsPerHour + microsPerHour) = [] := by
      rw [List.eq_nil_iff_forall_not_mem]
      intro b hb
      obtain ⟨hb, hdevice, hlo, hhi⟩ := mem_slice.mp hb
      rcases hcovered.hour b hb with hsince | hopen | ⟨_, hmem, _⟩
      · have hmem := mem_slice.mpr ⟨hsince, hdevice, hlo, hhi⟩
        rw [hfresh] at hmem
        cases hmem
      · unfold truncateToHour at hopen
        rw [toTimestamp_hours] at hopen
        unfold nanosPerHour microsPerHour at *
        omega
      · cases hmem
    have hsum := h.hours dir device n
    unfold hourBytes at hsum ⊢
    rw [sampledBytes_of_slice_nil hdue] at hsum
    omega
  · intro hclosed hfresh
    have hdue : slice s.dayDue device (n * microsPerDay)
        (n * microsPerDay + microsPerDay) = [] := by
      rw [List.eq_nil_iff_forall_not_mem]
      intro b hb
      obtain ⟨hb, hdevice, hlo, hhi⟩ := mem_slice.mp hb
      rcases hcovered.day b hb with hsince | hopen | ⟨_, hmem, _⟩
      · have hmem := mem_slice.mpr ⟨hsince, hdevice, hlo, hhi⟩
        rw [hfresh] at hmem
        cases hmem
      · unfold truncateToDay at hopen
        rw [toTimestamp_days] at hopen
        unfold nanosPerDay microsPerDay microsPerHour at *
        omega
      · cases hmem
    have hsum := h.days dir device n
    unfold dayBytes at hsum ⊢
    rw [sampledBytes_of_slice_nil hdue] at hsum
    omega

/-- A purge that reaches no waiting booking removes summed samples only. -/
theorem purgesSummed_of_kept (h : Kept s) {e : Event} (hreach : InReach s e) :
    PurgesSummed s e := by
  cases e with
  | purge value delay =>
      intro b hb hgone
      cases hcut : s.purgeCutoff value delay with
      | none =>
          unfold State.purge at hgone
          rw [hcut] at hgone
          exact absurd hb hgone
      | some cut =>
          have hold : ¬ cut ≤ b.sampledAt := by
            intro hle
            refine hgone ?_
            unfold State.purge
            rw [hcut]
            exact List.mem_filter.mpr ⟨hb, by simpa using hle⟩
          refine h.summed b hb ?_
          intro x hx _ htime
          have hle := hreach cut hcut x hx
          omega
  | _ =>
      trivial

end Timely

theorem kept_start {db : Db} (hempty : db.samples = []) (now : Int) :
    Kept (start db now) ∧ Timely (start db now) := by
  refine ⟨⟨⟨List.nodup_nil, ?_⟩, ?_, ?_, ?_, ?_, ?_, ?_, ?_⟩, ?_, ?_, ?_⟩
  · intro r hr
    cases hr
  · intro b hb
    rw [show (start db now).db.samples = [] from hempty] at hb
    cases hb
  · intro b hb
    cases hb
  · intro b hb
    cases hb
  · intro dir device n
    rfl
  · intro device n hrow
    exact absurd rfl hrow
  · intro dir device n
    rfl
  · intro b hb
    rw [show (start db now).db.samples = [] from hempty] at hb
    cases hb
  · intro now hnow
    cases hnow
  · intro p hp
    cases hp
  · intro p hp
    cases hp

/--
In a run in reach every closed hour and day has the sum of all its samples, and
no sample is purged before its bytes are inside the row of its hour.
-/
theorem bandwidth_history_conserved (db : Db) (now : Int) (es : List Event)
    (hempty : db.samples = []) (hreach : Along step InReach (start db now) es) :
    Always step State.Settled (start db now) es ∧ Along step PurgesSummed (start db now) es :=
  ⟨always_of_along (fun s => Kept s ∧ Timely s) step_kept
      (fun _ h => settled_of_kept h.1 h.2) (kept_start hempty now) hreach,
    along_of_inv (fun s => Kept s ∧ Timely s) step_kept
      (fun _ _ h hreach => purgesSummed_of_kept h.1 hreach) (kept_start hempty now) hreach⟩

section Recent

open Db.PeerUsageCheckpoints

/-- A call adds its bookings to the samples. -/
theorem sampledBytes_delivered (db : Db) (call : Delivery) (dir : Direction) (device : Uuid)
    (lo hi : Int) :
    sampledBytes (delivered db call).samples dir device lo hi =
      sampledBytes db.samples dir device lo hi +
        sampledBytes (bookings db call) dir device lo hi := by
  rcases delivered_cases db call with ⟨e, herror, hsame⟩ | ⟨u, hok, haccount⟩
  · have hnew : bookings db call = [] := by
      unfold bookings
      rw [herror]
    rw [hsame, hnew]
    exact (Int.add_zero _).symm
  · obtain ⟨_, hdelta, ⟨hrx, htx⟩, _⟩ := account_eq_ok haccount
    obtain ⟨hdrx, hdtx⟩ := deltaIn_nonneg hrx htx db
    have hsum := samples_columnSum (Sample.bytes dir) haccount
      (q := during (fun s => s.deviceId == device) Sample.sampledAt lo hi)
      (x := (firstSample call.observation (call.observation.deltaIn db)).bytes dir)
      (by
        intro b b' hdevice htime
        simp only [during, hdevice, htime])
      rfl
      (by
        intro b
        cases dir
        · rfl
        · rfl)
      (by
        intro hzero
        cases dir
        · exact hzero.2
        · exact hzero.1)
    unfold sampledBytes
    rw [hsum]
    congr 1
    unfold bookings
    rw [hok]
    simp only [hdelta]
    by_cases hpos : 0 < (call.observation.deltaIn db).combined
    · rw [if_pos hpos, columnSum_cons, columnSum_nil, Int.add_zero]
    · obtain ⟨hzeroRx, hzeroTx⟩ := delta_eq_zero hdrx hdtx hpos
      have hbytes :
          (firstSample call.observation (call.observation.deltaIn db)).bytes dir = 0 := by
        cases dir
        · exact hzeroTx
        · exact hzeroRx
      rw [if_neg hpos, columnSum_nil, hbytes]
      split
      · rfl
      · rfl

/-- What no purge can have reached yet is as it was booked. -/
def State.RecentWhole (s : State) : Prop :=
  ∀ lo hi, horizon s.now ≤ lo → s.Whole lo hi

theorem recentWhole_step (s : State) (e : Event) (h : s.RecentWhole) :
    (step s e).RecentWhole := by
  cases e with
  | wait elapsed =>
      intro lo hi hlo
      refine h lo hi (Int.le_trans (horizon_mono ?_) hlo)
      change s.now ≤ s.now + elapsed
      omega
  | account call =>
      intro lo hi hlo dir device
      simp only [step, State.account]
      rw [sampledBytes_delivered, sampledBytes_append, h lo hi hlo dir device]
  | tick =>
      exact h
  | statement ok =>
      have hrollup : ∀ q, (s.rollup q).RecentWhole := by
        intro q
        cases q with
        | hourly start =>
            exact h
        | daily start =>
            exact h
        | deviceCandles dayStart dayEnd =>
            exact h
        | serverCandles dayStart dayEnd =>
            exact h
      have hleave : ∀ {s : State} (p : Pass), s.RecentWhole → (s.leave p).RecentWhole := by
        intro s p hs
        unfold State.leave
        split
        · exact hs
        · exact hs
      simp only [step, State.statement]
      split
      · exact h
      · split
        · exact h
        · refine hleave _ ?_
          split
          · exact hrollup _
          · exact h
  | purge value delay =>
      simp only [step, State.purge]
      split
      · exact h
      · rename_i cut hcut
        intro lo hi hlo dir device
        unfold State.purgeCutoff at hcut
        obtain ⟨days, hdays, rfl⟩ := Option.map_eq_some_iff.mp hcut
        have hle : cutoff (s.now - delay) days ≤ horizon s.now :=
          Int.le_trans (cutoff_le_horizon (windowDays_pos (by decide) hdays))
            (horizon_mono (by omega))
        rw [← h lo hi hlo dir device, sampledBytes_eq_sum, sampledBytes_eq_sum]
        unfold purgeSamples
        rw [slice_filter_keep]
        intro b _ hb _
        rw [decide_eq_true_eq]
        exact Int.le_trans (Int.le_trans hle hlo) hb
  | restart =>
      exact h

/-- An hourly statement misses purged samples only when it is a day late. -/
theorem recentWhole_run {db : Db} (hempty : db.samples = []) (now : Int) (es : List Event) :
    Always step State.RecentWhole (start db now) es := by
  refine always_of_inv State.RecentWhole recentWhole_step (fun _ h => h) ?_ es
  intro lo hi _ dir device
  rw [show (start db now).db.samples = [] from hempty]
  rfl

end Recent

section Sample

open Db.PeerUsageCheckpoints

/-- 2026-06-01T00:00:00Z. -/
def sampleNow : Int := 1780272000 * 1000000000

/-- A first observation and 200 bytes each way ten seconds later. -/
def sampleTraffic : List Event :=
  [.account ⟨sampleObservation 5000000000 100, true⟩,
    .account ⟨sampleObservation 15000000000 300, true⟩]

/-- A pass whose statements all go through. -/
def samplePass : List Event :=
  [.tick, .statement true, .statement true, .statement true, .statement true]

/-- The worker is down for two hours before the first pass after the traffic. -/
def sampleOutage : List Event :=
  sampleTraffic ++ [Event.wait (7200 * 1000000000)] ++ samplePass ++
    [Event.wait (2 * 86400 * 1000000000), Event.purge (some (some 1)) 0]

/-- An outage of two hours leaves the closed hour without its bytes, and the
purge then removes the only record of them. -/
theorem outage_loses_history :
    ¬ Always step State.Settled (start ledgerDb sampleNow) sampleOutage ∧
      ¬ Along step PurgesSummed (start ledgerDb sampleNow) sampleOutage := by
  constructor
  · intro h
    have hlast := h.last _ (by decide :
      (runEvents step (start ledgerDb sampleNow) sampleOutage).reviewed =
        some (sampleNow + 7200 * 1000000000)) .rx 20 494520
    exact absurd (hlast.1 (by decide) (by decide)) (by decide)
  · intro h
    have hpurge := (along_append.mp h).2
    have hmem : (firstSample (sampleObservation 15000000000 300) ⟨200, 200⟩) ∈
        (runEvents step (start ledgerDb sampleNow)
          (sampleTraffic ++ [Event.wait (7200 * 1000000000)] ++ samplePass)).db.samples := by
      decide
    obtain ⟨row, hrow, _⟩ := hpurge.2.1 _ hmem (by decide)
    have hnone : rowAt Aggregate.key (20, .hour, 494520 * microsPerHour)
        (runEvents step (start ledgerDb sampleNow)
          (sampleTraffic ++ [Event.wait (7200 * 1000000000)] ++ samplePass)).aggregates = none := by
      decide
    exact Option.some_ne_none row (hrow.symm.trans hnone)

/-- An evaluable condition under which an event is in reach. -/
def CheckedReach (s : State) : Event → Prop
  | .tick =>
      (∀ b ∈ s.hourDue, toTimestamp (truncateToHour s.now - nanosPerHour) ≤ b.sampledAt) ∧
        ∀ b ∈ s.dayDue, toTimestamp (truncateToDay s.now - nanosPerDay) ≤ b.sampledAt
  | .statement _ => s.db.samples = s.booked
  | .purge value delay =>
      ∀ cut ∈ (s.purgeCutoff value delay).toList, ∀ b ∈ s.hourDue, cut ≤ b.sampledAt
  | _ => True

instance (s : State) (e : Event) : Decidable (CheckedReach s e) :=
  match e with
  | .tick => inferInstanceAs (Decidable (_ ∧ _))
  | .statement _ => inferInstanceAs (Decidable (_ = _))
  | .purge _ _ => inferInstanceAs (Decidable (∀ cut ∈ _, ∀ b ∈ _, _))
  | .wait _ => inferInstanceAs (Decidable True)
  | .account _ => inferInstanceAs (Decidable True)
  | .restart => inferInstanceAs (Decidable True)

theorem inReach_of_checked {s : State} {e : Event} (h : CheckedReach s e) : InReach s e := by
  cases e with
  | tick =>
      exact h
  | statement ok =>
      cases ok with
      | false =>
          trivial
      | true =>
          intro p start rest _ _ dir device
          rw [show s.db.samples = s.booked from h]
  | purge value delay =>
      intro cut hcut
      exact h cut (by rw [hcut]; exact List.mem_singleton_self cut)
  | _ =>
      trivial

/-- Passes in time, and the purge two days later. -/
def sampleMaintained : List Event :=
  sampleTraffic ++ [Event.wait (3600 * 1000000000)] ++ samplePass ++
    [Event.wait (2 * 86400 * 1000000000), Event.purge (some (some 1)) 0]

theorem bandwidth_history_sample :
    (Always step State.Settled (start ledgerDb sampleNow) sampleMaintained ∧
        Along step PurgesSummed (start ledgerDb sampleNow) sampleMaintained) ∧
      (runEvents step (start ledgerDb sampleNow) sampleMaintained).db.samples = [] ∧
      bytesAt (runEvents step (start ledgerDb sampleNow) sampleMaintained).aggregates .rx 20 .day
        (20605 * microsPerDay) = 200 := by
  have hchecked : Along step CheckedReach (start ledgerDb sampleNow) sampleMaintained := by
    decide
  have hreach : Along step InReach (start ledgerDb sampleNow) sampleMaintained :=
    along_of_inv (fun _ => True) (fun _ _ _ _ => trivial)
      (fun _ _ _ h => inReach_of_checked h) trivial hchecked
  refine ⟨bandwidth_history_conserved ledgerDb sampleNow sampleMaintained rfl hreach, ?_, ?_⟩
  · decide
  · decide

end Sample

end ByteHistory
end Worker
end ZeroVpn
