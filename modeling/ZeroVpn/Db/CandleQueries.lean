import ZeroVpn.Db.Candles
import ZeroVpn.Db.Months
import ZeroVpn.Library.Pages

/-!
# Reading candles

The read side of `crates/zerovpn-db/src/repos/candles.rs`: `query_candles` folds
the rows of one device or server into the buckets of a timeframe, `user_candles`
first combines the devices of a user period by period, and `decode_candles` turns
the sums into averages.  A cursor keeps the rows before it, and a limit the
latest buckets.

The sums are `NUMERIC` and are cast to `BIGINT`, so that a query fails if a
figure of a bucket is out of range.

`pages_lossless` says that going back page by page yields what the unlimited
query does, or fails as it does.
-/

namespace ZeroVpn

open Library

namespace Db
namespace Candles

/-- A candle for the chart. -/
structure Candle where
  bucketStart : Int
  rxHigh : Int
  rxLow : Int
  rxAvg : Int
  txHigh : Int
  txLow : Int
  txAvg : Int
  deriving DecidableEq, Repr

inductive Timeframe where
  | m1
  | m3
  | m5
  | m15
  | m30
  | h1
  | d1
  | d7
  | month1
  deriving DecidableEq, Repr

/-- `uses_daily`. -/
def Timeframe.usesDaily : Timeframe → Bool
  | .d1 | .d7 | .month1 => true
  | _ => false

/-- 2001-01-01 00:00:00 UTC. -/
def binOrigin : Int := 978307200 * 1000000

/-- `date_bin`, with a stride in minutes. -/
def dateBin (minutes : Int) (t : Int) : Int :=
  binOrigin + (t - binOrigin) / (minutes * 60000000) * (minutes * 60000000)

/-- `date_trunc('month', …)` in UTC. -/
def truncMonth (t : Int) : Int := toTimestamp (firstOfMonth (ofTimestamp t))

/-- `bucket_expr`. -/
def Timeframe.bucket : Timeframe → Int → Int
  | .m1 => dateBin 1
  | .m3 => dateBin 3
  | .m5 => dateBin 5
  | .m15 => dateBin 15
  | .m30 => dateBin 30
  | .h1 => dateBin 60
  | .d1 => fun t => t
  | .d7 => dateBin (7 * 24 * 60)
  | .month1 => truncMonth

/-- What a chart is about. -/
inductive Series where
  | device (id : Uuid)
  | server (id : Uuid)
  | user (id : Uuid)
  deriving DecidableEq, Repr

/-- The candle tables, and the users of the devices. -/
structure CandleStore where
  deviceMinutes : List CandleRow
  deviceDays : List CandleRow
  serverMinutes : List CandleRow
  serverDays : List CandleRow
  owner : Uuid → Option Uuid

/-- The rows of the series in the table that the timeframe reads. -/
def CandleStore.rows (store : CandleStore) (daily : Bool) : Series → List CandleRow
  | .device id => (if daily then store.deviceDays else store.deviceMinutes).filter (·.id == id)
  | .server id => (if daily then store.serverDays else store.serverMinutes).filter (·.id == id)
  | .user id => (if daily then store.deviceDays else store.deviceMinutes).filter
      (store.owner ·.id == some id)

/--
The combined bar of a user's devices: `SUM(high), SUM(low), SUM(sum), …, MAX(samples)`.
A `SUM` of `BIGINT`s is a `NUMERIC` here; only the outer query casts.
-/
def combineDevices (user : Uuid) (minute : Int) (rows : List CandleRow) : CandleRow where
  id := user
  bucketStart := minute
  rxHigh := (rows.map CandleRow.rxHigh).sum
  rxLow := (rows.map CandleRow.rxLow).sum
  rxSum := (rows.map CandleRow.rxSum).sum
  txHigh := (rows.map CandleRow.txHigh).sum
  txLow := (rows.map CandleRow.txLow).sum
  txSum := (rows.map CandleRow.txSum).sum
  samples := (foldColumn max CandleRow.samples rows).getD 0

/-- The inner query of `user_candles`. -/
def perPeriod (user : Uuid) (rows : List CandleRow) : List CandleRow :=
  groupRows CandleRow.bucketStart (combineDevices user) rows

/-- The rows that the outer `GROUP BY` reads. -/
def Series.bars : Series → List CandleRow → List CandleRow
  | .device _, rows => rows
  | .server _, rows => rows
  | .user id, rows => perPeriod id rows

def Series.id : Series → Uuid
  | .device id => id
  | .server id => id
  | .user id => id

/-- One row of `decode_candles`; `/` rounds towards zero. -/
def decodeCandle (row : CandleRow) : Candle where
  bucketStart := row.bucketStart
  rxHigh := row.rxHigh
  rxLow := row.rxLow
  rxAvg := row.rxSum.tdiv (max row.samples 1)
  txHigh := row.txHigh
  txLow := row.txLow
  txAvg := row.txSum.tdiv (max row.samples 1)

/-- `decode_candles`. -/
def decodeCandles (rows : List CandleRow) : List Candle := rows.reverse.map decodeCandle

/-- The figures fit into a `BIGINT`. -/
def CandleRow.Bigint (r : CandleRow) : Prop := ∀ c : Column, inI64 (c.value r)

instance (r : CandleRow) : Decidable r.Bigint :=
  inferInstanceAs (Decidable (∀ _ : Column, _))

/-- `device_candles`, `server_candles` and `user_candles` over the rows of the series. -/
def candlesOf (plan : Plan) (series : Series) (tf : Timeframe) (before : Option Int)
    (limit : Option Nat) (rows : List CandleRow) : Except DbError (List Candle) :=
  (checked CandleRow.Bigint .constraint plan limit
    (groupsDesc (fun r => tf.bucket r.bucketStart) (fun b bars => dayCandle b series.id bars)
      (series.bars (rows.filter (olderThan CandleRow.bucketStart before))))).map decodeCandles

def CandleStore.candles (store : CandleStore) (plan : Plan) (series : Series) (tf : Timeframe)
    (before : Option Int) (limit : Option Nat) : Except DbError (List Candle) :=
  candlesOf plan series tf before limit (store.rows tf.usesDaily series)

section Buckets

theorem grid_dateBin {minutes : Int} (h : 0 < minutes) : Grid (dateBin minutes) :=
  grid_bins binOrigin (by omega)

/-- The first instant of a month is a whole microsecond. -/
theorem ofTimestamp_firstOfMonth (t : Int) :
    ofTimestamp (toTimestamp (firstOfMonth t)) = firstOfMonth t := by
  rw [firstOfMonth_eq, Bandwidth.toTimestamp_days]
  unfold ofTimestamp nanosPerDay Bandwidth.microsPerDay Bandwidth.microsPerHour
  omega

theorem monthOf_firstOfMonth (t : Int) : monthOf (firstOfMonth t) = monthOf t :=
  inCycle_iff.mp ⟨Int.le_refl _, Int.lt_of_le_of_lt (firstOfMonth_le t) (lt_firstOfNextMonth t)⟩

theorem grid_truncMonth : Grid truncMonth where
  mono := by
    intro t t' h
    refine toTimestamp_mono ?_
    have hmonth : monthOf (ofTimestamp t) ≤ monthOf (ofTimestamp t') :=
      monthOf_mono (by unfold ofTimestamp; omega)
    rw [firstOfMonth_eq, firstOfMonth_eq]
    exact Int.mul_le_mul_of_nonneg_right (monthStart_strictMono.monotone hmonth) (by decide)
  le := by
    intro t
    have hle := toTimestamp_mono (firstOfMonth_le (ofTimestamp t))
    rwa [toTimestamp_ofTimestamp] at hle
  idem := by
    intro t
    unfold truncMonth
    rw [ofTimestamp_firstOfMonth, firstOfMonth_eq, monthOf_firstOfMonth, ← firstOfMonth_eq]

/-- The bucket of an instant is the start of the interval that the instant is in. -/
theorem grid_bucket (tf : Timeframe) : Grid tf.bucket := by
  cases tf with
  | d1 =>
      exact grid_id
  | month1 =>
      exact grid_truncMonth
  | _ =>
      exact grid_dateBin (by decide)

end Buckets

section Pages

variable {series : Series} {tf : Timeframe} {rows : List CandleRow}

/-- Rows can be sorted out by their times before or after the devices are combined. -/
theorem bars_filter (series : Series) (p : Int → Bool) (rows : List CandleRow) :
    series.bars (rows.filter fun r => p r.bucketStart) =
      (series.bars rows).filter fun r => p r.bucketStart := by
  cases series with
  | device id =>
      rfl
  | server id =>
      rfl
  | user id =>
      exact groupRows_filter p fun _ _ => rfl

/-- The times of the bars are those of the rows. -/
theorem mem_bars_times (series : Series) (rows : List CandleRow) (t : Int) :
    t ∈ (series.bars rows).map CandleRow.bucketStart ↔ t ∈ rows.map CandleRow.bucketStart := by
  cases series with
  | device id =>
      exact Iff.rfl
  | server id =>
      exact Iff.rfl
  | user id =>
      constructor
      · intro h
        obtain ⟨bar, hbar, rfl⟩ := List.mem_map.mp h
        obtain ⟨r, hr, rfl⟩ := mem_groupRows.mp hbar
        exact List.mem_map.mpr ⟨r, hr, rfl⟩
      · intro h
        obtain ⟨r, hr, rfl⟩ := List.mem_map.mp h
        exact List.mem_map.mpr ⟨_, mem_groupRows.mpr ⟨r, hr, rfl⟩, rfl⟩

/-- The candle of a bucket. -/
def candleOf (series : Series) (b : Int) (bars : List CandleRow) : Candle :=
  decodeCandle (dayCandle b series.id bars)

/-- The candles of all buckets, the oldest first. -/
def allCandles (series : Series) (tf : Timeframe) (before : Option Int) (rows : List CandleRow) :
    List Candle :=
  decodeCandles
    (groupsDesc (fun r => tf.bucket r.bucketStart) (fun b bars => dayCandle b series.id bars)
      (series.bars (rows.filter (olderThan CandleRow.bucketStart before))))

/-- The rows of a bucket that are older than the cursor. -/
def bucketRows (tf : Timeframe) (before : Option Int) (b : Int) (rows : List CandleRow) :
    List CandleRow :=
  rows.filter fun r => olderThan id before r.bucketStart && (tf.bucket r.bucketStart == b)

/-- The bars of a bucket are those of its rows. -/
theorem bars_bucketRows (series : Series) (tf : Timeframe) (before : Option Int) (b : Int)
    (rows : List CandleRow) :
    series.bars (bucketRows tf before b rows) =
      (series.bars (rows.filter (olderThan CandleRow.bucketStart before))).filter
        fun r => tf.bucket r.bucketStart == b := by
  unfold bucketRows
  rw [bars_filter series fun t => olderThan id before t && (tf.bucket t == b),
    olderThan_eq CandleRow.bucketStart before, bars_filter, List.filter_filter]
  refine List.filter_congr ?_
  intro r _
  exact Bool.and_comm _ _

/-- A bucket without rows is one without bars. -/
theorem bars_eq_nil (series : Series) : series.bars rows = [] ↔ rows = [] := by
  constructor
  · intro h
    refine List.eq_nil_iff_forall_not_mem.mpr ?_
    intro r hr
    have htime := (mem_bars_times series _ r.bucketStart).mpr (List.mem_map_of_mem hr)
    rw [h] at htime
    cases htime
  · intro h
    refine List.eq_nil_iff_forall_not_mem.mpr ?_
    intro bar hbar
    have htime := (mem_bars_times series _ bar.bucketStart).mp (List.mem_map_of_mem hbar)
    rw [h] at htime
    cases htime

/-- The results of a query before they are decoded. -/
theorem mem_groups_iff {before : Option Int} {g : CandleRow} :
    g ∈ groupsDesc (fun r => tf.bucket r.bucketStart) (fun b bars => dayCandle b series.id bars)
        (series.bars (rows.filter (olderThan CandleRow.bucketStart before))) ↔
      ∃ b, bucketRows tf before b rows ≠ [] ∧
        g = dayCandle b series.id (series.bars (bucketRows tf before b rows)) := by
  rw [mem_groupsDesc]
  constructor
  · rintro ⟨x, hx, rfl⟩
    refine ⟨tf.bucket x.bucketStart, ?_, ?_⟩
    · rw [ne_eq, ← bars_eq_nil series, bars_bucketRows]
      exact List.ne_nil_of_mem (List.mem_filter.mpr ⟨hx, beq_self_eq_true _⟩)
    · rw [bars_bucketRows]
  · rintro ⟨b, hne, rfl⟩
    rw [ne_eq, ← bars_eq_nil series, bars_bucketRows] at hne
    obtain ⟨x, hx⟩ := List.exists_mem_of_ne_nil _ hne
    obtain ⟨hmem, hbucket⟩ := List.mem_filter.mp hx
    refine ⟨x, hmem, ?_⟩
    rw [bars_bucketRows, beq_iff_eq.mp hbucket]

/-- The candle of a bucket is made of its rows. -/
theorem mem_allCandles {before : Option Int} {c : Candle} {b : Int} :
    c ∈ allCandles series tf before rows ∧ c.bucketStart = b ↔
      bucketRows tf before b rows ≠ [] ∧
        c = candleOf series b (series.bars (bucketRows tf before b rows)) := by
  unfold allCandles decodeCandles
  rw [List.mem_map]
  constructor
  · rintro ⟨⟨g, hg, rfl⟩, rfl⟩
    obtain ⟨b, hne, rfl⟩ := mem_groups_iff.mp (List.mem_reverse.mp hg)
    exact ⟨hne, rfl⟩
  · rintro ⟨hne, rfl⟩
    exact ⟨⟨_, List.mem_reverse.mpr (mem_groups_iff.mpr ⟨b, hne, rfl⟩), rfl⟩, rfl⟩

section Answers

variable {plan : Plan} {before : Option Int} {limit : Option Nat} {candles : List Candle}

/-- A candle that a query returns is that of a bucket, whose figures are in range. -/
theorem candle_of_answer (h : candlesOf plan series tf before limit rows = .ok candles) {c : Candle}
    (hc : c ∈ candles) :
    bucketRows tf before c.bucketStart rows ≠ [] ∧
      c = candleOf series c.bucketStart
        (series.bars (bucketRows tf before c.bucketStart rows)) ∧
      (dayCandle c.bucketStart series.id
        (series.bars (bucketRows tf before c.bucketStart rows))).Bigint := by
  unfold candlesOf at h
  cases hpage : checked CandleRow.Bigint DbError.constraint plan limit _ with
  | error e =>
      rw [hpage] at h
      cases h
  | ok page =>
      rw [hpage] at h
      cases h
      obtain ⟨g, hg, rfl⟩ := List.mem_map.mp hc
      have hmem : g ∈ limited limit _ := eq_of_checked hpage ▸ List.mem_reverse.mp hg
      obtain ⟨b, hne, rfl⟩ := mem_groups_iff.mp (limited_subset limit _ hmem)
      refine ⟨hne, rfl, ?_⟩
      by_contra hout
      rw [checked_of_exists hmem hout] at hpage
      cases hpage

/-- The unlimited query returns the candles of all buckets. -/
theorem answer_eq (h : candlesOf plan series tf before none rows = .ok candles) :
    candles = allCandles series tf before rows := by
  unfold candlesOf at h
  cases hpage : checked CandleRow.Bigint DbError.constraint plan none _ with
  | error e =>
      rw [hpage] at h
      cases h
  | ok page =>
      rw [hpage, eq_of_checked hpage] at h
      cases h
      rfl

/-- A query goes through if the figures of every bucket are in range. -/
theorem answer_of_bigint (h : ∀ b, bucketRows tf before b rows ≠ [] →
      (dayCandle b series.id (series.bars (bucketRows tf before b rows))).Bigint) :
    ∃ candles, candlesOf plan series tf before limit rows = .ok candles := by
  unfold candlesOf
  rw [checked_of_all]
  · exact ⟨_, rfl⟩
  · intro g hg
    obtain ⟨b, hne, rfl⟩ := mem_groups_iff.mp hg
    exact h b hne

/-- A page of one candle has the latest bucket. -/
theorem candlesOf_latest {b : Int} (hne : bucketRows tf before b rows ≠ [])
    (hlast : ∀ r ∈ rows, olderThan id before r.bucketStart = true → tf.bucket r.bucketStart ≤ b)
    (hfits : (dayCandle b series.id (series.bars (bucketRows tf before b rows))).Bigint) :
    candlesOf .page series tf before (some 1) rows =
      .ok [candleOf series b (series.bars (bucketRows tf before b rows))] := by
  rw [ne_eq, ← bars_eq_nil series, bars_bucketRows] at hne
  obtain ⟨x, hx⟩ := List.exists_mem_of_ne_nil _ hne
  obtain ⟨hmem, hbucket⟩ := List.mem_filter.mp hx
  have hb := beq_iff_eq.mp hbucket
  have holdest : ∀ bar ∈ series.bars (rows.filter (olderThan CandleRow.bucketStart before)),
      tf.bucket bar.bucketStart ≤ tf.bucket x.bucketStart := by
    intro bar hbar
    have htime := (mem_bars_times series _ bar.bucketStart).mp (List.mem_map_of_mem hbar)
    obtain ⟨r, hr, heq⟩ := List.mem_map.mp htime
    obtain ⟨hrow, holder⟩ := List.mem_filter.mp hr
    rw [olderThan_eq] at holder
    rw [hb, ← heq]
    exact hlast r hrow holder
  have hpage : limited (some 1) (groupsDesc (fun r => tf.bucket r.bucketStart)
      (fun b bars => dayCandle b series.id bars)
      (series.bars (rows.filter (olderThan CandleRow.bucketStart before)))) =
        [dayCandle b series.id (series.bars (bucketRows tf before b rows))] := by
    rw [limited_groupsDesc hmem holdest, hb, ← bars_bucketRows]
  unfold candlesOf checked Plan.computed
  simp only [hpage]
  rw [if_pos]
  · rfl
  · intro g hg
    rw [List.mem_singleton.mp hg]
    exact hfits

end Answers

theorem length_bars_le (series : Series) (rows : List CandleRow) :
    (series.bars rows).length ≤ rows.length := by
  cases series with
  | device id =>
      exact Nat.le_refl _
  | server id =>
      exact Nat.le_refl _
  | user id =>
      change (groupRows _ _ rows).length ≤ _
      unfold groupRows
      rw [List.length_map]
      have hlength := (List.dedup_sublist (rows.map CandleRow.bucketStart)).length_le
      rwa [List.length_map] at hlength

/-- The unlimited query has one candle for every bucket with rows, from all of its rows. -/
structure Complete (series : Series) (tf : Timeframe) (rows : List CandleRow)
    (candles : List Candle) : Prop where
  once : (candles.map Candle.bucketStart).Pairwise (· < ·)
  every : ∀ r ∈ rows, tf.bucket r.bucketStart ∈ candles.map Candle.bucketStart
  whole : ∀ c ∈ candles, c = candleOf series c.bucketStart
    (series.bars (rows.filter fun r => tf.bucket r.bucketStart == c.bucketStart))

theorem allCandles_complete (series : Series) (tf : Timeframe) (rows : List CandleRow) :
    Complete series tf rows (allCandles series tf none rows) := by
  have hbucket : ∀ b, bucketRows tf none b rows =
      rows.filter fun r => tf.bucket r.bucketStart == b := fun _ => rfl
  have hkeys : (allCandles series tf none rows).map Candle.bucketStart =
      (descending ((series.bars (rows.filter (olderThan CandleRow.bucketStart none))).map
        fun r => tf.bucket r.bucketStart)).reverse := by
    unfold allCandles decodeCandles
    rw [List.map_map, List.map_reverse]
    exact congrArg List.reverse (groupsDesc_keys fun _ _ => rfl)
  constructor
  case once =>
    rw [hkeys, List.pairwise_reverse]
    exact pairwise_descending _
  case every =>
    intro r hr
    have hne : bucketRows tf none (tf.bucket r.bucketStart) rows ≠ [] := by
      rw [hbucket]
      exact List.ne_nil_of_mem (List.mem_filter.mpr ⟨hr, beq_self_eq_true _⟩)
    obtain ⟨hmem, hb⟩ := mem_allCandles.mpr ⟨hne, rfl⟩
    exact List.mem_map.mpr ⟨_, hmem, hb⟩
  case whole =>
    intro c hc
    obtain ⟨_, hcandle⟩ := mem_allCandles.mp ⟨hc, rfl⟩
    exact hcandle

/--
Going back with the oldest bucket of each page as the next cursor ends, and the
pages are the answer of the unlimited query: its failure, or every bucket once
and whole.
-/
theorem pages_lossless (store : CandleStore) (series : Series) (tf : Timeframe) (limit : Nat)
    (hlimit : 1 ≤ limit) (plan : Option Int → Plan) (plan' : Plan) :
    (∃ enough, ∀ n, enough ≤ n →
      readBack (fun before => store.candles (plan before) series tf before (some limit))
          Candle.bucketStart n none =
        some (store.candles plan' series tf none none)) ∧
      ∀ candles, store.candles plan' series tf none none = .ok candles →
        Complete series tf (store.rows tf.usesDaily series) candles := by
  constructor
  · refine ⟨(store.rows tf.usesDaily series).length + 1, fun n hn => ?_⟩
    have hlength := length_bars_le series (store.rows tf.usesDaily series)
    have hread : readBack (fun before => (checked CandleRow.Bigint DbError.constraint (plan before)
        (some limit) (groupsDesc (fun r => tf.bucket r.bucketStart)
          (fun b bars => dayCandle b series.id bars)
          ((series.bars (store.rows tf.usesDaily series)).filter
            (olderThan CandleRow.bucketStart before)))).map
          fun page => (page.map decodeCandle).reverse) Candle.bucketStart n none =
        some ((checked CandleRow.Bigint DbError.constraint .all none
          (groupsDesc (fun r => tf.bucket r.bucketStart) (fun b bars => dayCandle b series.id bars)
            (series.bars (store.rows tf.usesDaily series)))).map
          fun page => (page.map decodeCandle).reverse) :=
      readBack_groups (grid_bucket tf) (fun _ _ => rfl) hlimit plan _ (by omega)
    have hdecode : (fun page : List CandleRow => (page.map decodeCandle).reverse) =
        decodeCandles := by
      funext page
      exact List.map_reverse.symm
    have holder : ∀ before, (series.bars (store.rows tf.usesDaily series)).filter
        (olderThan CandleRow.bucketStart before) = series.bars
          ((store.rows tf.usesDaily series).filter (olderThan CandleRow.bucketStart before)) := by
      intro before
      rw [olderThan_eq, bars_filter]
    have hall : (store.rows tf.usesDaily series).filter (olderThan CandleRow.bucketStart none) =
        store.rows tf.usesDaily series := List.filter_eq_self.mpr fun _ _ => rfl
    rw [hdecode] at hread
    simp only [holder] at hread
    unfold CandleStore.candles candlesOf
    rw [hread, hall, checked_none, checked_none]
  · intro candles h
    rw [answer_eq h]
    exact allCandles_complete series tf _

/-- A row of device `id` some minutes after 2026-06-01. -/
def sampleCandle (id : Uuid) (minutes rate samples : Int) : CandleRow where
  id := id
  bucketStart := (1780272000 + minutes * 60) * 1000000
  rxHigh := rate
  rxLow := rate
  rxSum := rate * samples
  txHigh := rate
  txLow := rate
  txSum := rate * samples
  samples := samples

/-- Two devices of user 1. -/
def sampleStore (minutes : List CandleRow) : CandleStore where
  deviceMinutes := minutes
  deviceDays := []
  serverMinutes := []
  serverDays := []
  owner _ := some 1

/-- The user's quarters of an hour, one to a page. -/
theorem pages_lossless_sample :
    ∃ enough, ∀ n, enough ≤ n →
      readBack (fun before => (sampleStore [sampleCandle 20 0 8 60, sampleCandle 21 0 4 60,
          sampleCandle 20 14 2 60, sampleCandle 20 15 6 60]).candles .page (.user 1) .m15 before
            (some 1)) Candle.bucketStart n none =
        some (.ok [⟨1780272000 * 1000000, 12, 2, 7, 12, 2, 7⟩,
          ⟨(1780272000 + 900) * 1000000, 6, 6, 6, 6, 6, 6⟩]) := by
  obtain ⟨⟨enough, h⟩, _⟩ := pages_lossless (sampleStore [sampleCandle 20 0 8 60,
    sampleCandle 21 0 4 60, sampleCandle 20 14 2 60, sampleCandle 20 15 6 60]) (.user 1) .m15 1
    (Nat.le_refl 1) (fun _ => .page) .all
  refine ⟨enough, fun n hn => (h n hn).trans (congrArg some ?_)⟩
  decide

/-- Two minutes of an hour, each of which the table can hold: the sums of the hour are out of
range, and neither the unlimited query nor the pages yield a candle. -/
theorem hour_out_of_range :
    let store := sampleStore [sampleCandle 20 0 (2 ^ 62) 1, sampleCandle 20 1 (2 ^ 62) 1]
    (∀ r ∈ store.deviceMinutes, r.Storable) ∧
      (¬ ∃ candles, store.candles .all (.device 20) .h1 none none = .ok candles) ∧
      ¬ ∃ n candles, readBack (fun before => store.candles .page (.device 20) .h1 before (some 1))
        Candle.bucketStart n none = some (.ok candles) := by
  intro store
  have hquery : store.candles .all (.device 20) .h1 none none = .error .constraint := by
    decide
  have hpage : store.candles .page (.device 20) .h1 none (some 1) = .error .constraint := by
    decide
  refine ⟨by decide, ?_, ?_⟩
  · rintro ⟨candles, h⟩
    rw [hquery] at h
    cases h
  · rintro ⟨n, candles, h⟩
    cases n with
    | zero =>
        cases h
    | succ n =>
        unfold readBack at h
        rw [hpage] at h
        cases h

end Pages

end Candles
end Db
end ZeroVpn
