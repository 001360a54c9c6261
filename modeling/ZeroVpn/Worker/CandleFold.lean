import Mathlib.Algebra.BigOperators.Ring.Finset
import Mathlib.Algebra.Order.BigOperators.Group.List
import ZeroVpn.Db.CandleQueries
import ZeroVpn.Worker.CandleHistory

/-!
# Candles are folds of ticks

`CandleAccumulator` of `crates/zerovpn-worker/src/wg_poller.rs`: every tick folds
the rates of the devices and of the servers into the bars of its minute, and the
first tick of another minute flushes them with `insert_1m`.  Charts re-bin the
rows with `query_candles`.

A bar adds rates in `i64` and counts ticks in `i32`, and both wrap; and a query
fails if the figures of a bucket are out of range.  As long as no minute and no
bucket reaches these bounds and the flushes go through, the candle of a bucket
whose minutes were flushed is the fold of the ticks of its minutes with traffic.

A tick carries the rates that it got to observe.
-/

namespace ZeroVpn

open Library Db Db.Candles

namespace Worker
namespace CandleFold

open CandleHistory (Bar Scope drainBars floorMinute toI64 toI32 toI64_eq toI32_eq)

/-- The rates of a device or a server in bits per second, as `u64`. -/
structure Rate where
  id : Uuid
  rxBps : Nat
  txBps : Nat
  deriving DecidableEq, Repr

/-- A tick whose snapshot could be read. -/
structure PollTick where
  now : Int
  devices : List Rate
  servers : List Rate
  deriving DecidableEq, Repr

def PollTick.rates (t : PollTick) : Scope → List Rate
  | .device => t.devices
  | .server => t.servers

/-- `Bar::observe` of the rates as `i64`. -/
def observeRate (r : Rate) (b : Bar) : Bar := b.observe (toI64 r.rxBps) (toI64 r.txBps)

/-- `entry(id).or_default().observe(…)`. -/
def observe (bars : List (Uuid × Bar)) (r : Rate) : List (Uuid × Bar) :=
  upsertRow (fun e => e.1 == r.id) (r.id, observeRate r Bar.empty)
    (fun e => (e.1, observeRate r e.2)) bars

structure CandleAccumulator where
  minute : Option Int
  devices : List (Uuid × Bar)
  servers : List (Uuid × Bar)
  deriving DecidableEq, Repr

/-- `roll_to`: the rows of the devices and of the servers for flushing. -/
def CandleAccumulator.rollTo (acc : CandleAccumulator) (bucket : Int) :
    CandleAccumulator × Option (List CandleRow × List CandleRow) :=
  match acc.minute with
  | some prev =>
      if prev ≠ bucket then
        (⟨some bucket, [], []⟩, some (drainBars acc.devices (toTimestamp prev),
          drainBars acc.servers (toTimestamp prev)))
      else (acc, none)
  | none => ({ acc with minute := some bucket }, none)

/-- The worker, and the minute tables. -/
structure State where
  acc : CandleAccumulator
  deviceMinutes : List CandleRow
  serverMinutes : List CandleRow
  deriving DecidableEq, Repr

/-- The minute table after a flush; one that fails is only logged. -/
def flush (rows minutes : List CandleRow) : List CandleRow :=
  match insert1m rows minutes with
  | .ok minutes' => minutes'
  | .error _ => minutes

/-- What a tick of `poll_once` does to the candles. -/
def step (s : State) (t : PollTick) : State :=
  match s.acc.rollTo (floorMinute t.now) with
  | (acc, flushed) =>
      { acc :=
          { acc with
            devices := t.devices.foldl observe acc.devices
            servers := t.servers.foldl observe acc.servers }
        deviceMinutes :=
          match flushed with
          | some (rows, _) => flush rows s.deviceMinutes
          | none => s.deviceMinutes
        serverMinutes :=
          match flushed with
          | some (_, rows) => flush rows s.serverMinutes
          | none => s.serverMinutes }

/-- The flushes of a tick go through. -/
def FlushesOk (s : State) (t : PollTick) : Prop :=
  ((s.acc.rollTo (floorMinute t.now)).2.all fun flushed =>
    (insert1m flushed.1 s.deviceMinutes).isOk && (insert1m flushed.2 s.serverMinutes).isOk) = true

instance (s : State) (t : PollTick) : Decidable (FlushesOk s t) :=
  inferInstanceAs (Decidable (_ = true))

/-- A worker that starts on some tables. -/
def boot (deviceMinutes serverMinutes : List CandleRow) : State where
  acc := ⟨none, [], []⟩
  deviceMinutes := deviceMinutes
  serverMinutes := serverMinutes

def State.minutes (s : State) : Scope → List CandleRow
  | .device => s.deviceMinutes
  | .server => s.serverMinutes

/-- The minute tables of the state, with some daily tables and devices. -/
def State.store (s : State) (rest : CandleStore) : CandleStore :=
  { rest with deviceMinutes := s.deviceMinutes, serverMinutes := s.serverMinutes }

/-- The chart of a device or a server. -/
def seriesOf (id : Uuid) : Scope → Series
  | .device => .device id
  | .server => .server id

/-- The bucket does not hold the minute in progress. -/
def State.Flushed (s : State) (tf : Timeframe) (b : Int) : Prop :=
  ∀ m, s.acc.minute = some m → tf.bucket (toTimestamp m) ≠ b

/-- The rate of an id at a tick, with the minute of the tick. -/
structure Reading where
  id : Uuid
  minute : Int
  rxBps : Nat
  txBps : Nat
  deriving DecidableEq, Repr

def Reading.key (r : Reading) : Uuid × Int := (r.id, r.minute)

/-- The rate at a tick of the minute. -/
def Rate.during (minute : Int) (r : Rate) : Reading := ⟨r.id, minute, r.rxBps, r.txBps⟩

def PollTick.readings (scope : Scope) (t : PollTick) : List Reading :=
  (t.rates scope).map (Rate.during (toTimestamp (floorMinute t.now)))

def readings (scope : Scope) (ts : List PollTick) : List Reading :=
  ts.flatMap (PollTick.readings scope)

/-- The id had traffic in the minute. -/
def busyAt (rs : List Reading) (k : Uuid × Int) : Bool :=
  rs.any fun r => decide (r.key = k) && (decide (0 < r.rxBps) || decide (0 < r.txBps))

/-- The readings that count for a bucket of the timeframe: those of minutes with traffic. -/
def counted (rs : List Reading) (id : Uuid) (tf : Timeframe) (b : Int) (before : Option Int) :
    List Reading :=
  rs.filter fun r => busyAt rs r.key && (r.id == id) && (tf.bucket r.minute == b) &&
    olderThan Reading.minute before r

/-- The plain fold of some readings: greatest, least and rounded-down average rate. -/
def directCandle (b : Int) (rs : List Reading) : Option Candle :=
  if rs = [] then none
  else some
    { bucketStart := b
      rxHigh := (foldColumn max (fun r => (r.rxBps : Int)) rs).getD 0
      rxLow := (foldColumn min (fun r => (r.rxBps : Int)) rs).getD 0
      rxAvg := ((rs.map Reading.rxBps).sum / rs.length : Nat)
      txHigh := (foldColumn max (fun r => (r.txBps : Int)) rs).getD 0
      txLow := (foldColumn min (fun r => (r.txBps : Int)) rs).getD 0
      txAvg := ((rs.map Reading.txBps).sum / rs.length : Nat) }

/-- The rates of an id in a minute add up to an `i64`, and its ticks to an `i32`. -/
def Fits (rs : List Reading) : Prop :=
  ∀ k, ((rs.filter fun r => decide (r.key = k)).map Reading.rxBps).sum < 2 ^ 63 ∧
    ((rs.filter fun r => decide (r.key = k)).map Reading.txBps).sum < 2 ^ 63 ∧
    (rs.filter fun r => decide (r.key = k)).length < 2 ^ 31

/-- A reading as a candle of its own. -/
def Reading.row (r : Reading) : CandleRow where
  id := r.id
  bucketStart := r.minute
  rxHigh := r.rxBps
  rxLow := r.rxBps
  rxSum := r.rxBps
  txHigh := r.txBps
  txLow := r.txBps
  txSum := r.txBps
  samples := 1

/-- What the candle of a bucket is made of: rows that were there, and the readings that count. -/
def bucketParts (initial : List CandleRow) (rs : List Reading) (id : Uuid) (tf : Timeframe)
    (b : Int) (before : Option Int) : List CandleRow :=
  bucketRows tf before b (initial.filter (·.id == id)) ++
    (counted rs id tf b before).map Reading.row

/-- The sums and the samples of the bucket stay within an `i64`. -/
def BucketFits (initial : List CandleRow) (rs : List Reading) (id : Uuid) (tf : Timeframe)
    (b : Int) : Prop :=
  ∀ c ∈ [Column.rxSum, Column.txSum, Column.samples],
    ((bucketParts initial rs id tf b none).map fun r => (c.value r).natAbs).sum < 2 ^ 63

section Bars

variable {minute : Int} {bars : List (Uuid × Bar)} {rs : List Reading}

/-- A bar as the row that it is flushed as. -/
def barRow (minute : Int) (e : Uuid × Bar) : CandleRow where
  id := e.1
  bucketStart := minute
  rxHigh := e.2.rxHigh
  rxLow := e.2.rxLow
  rxSum := e.2.rxSum
  txHigh := e.2.txHigh
  txLow := e.2.txLow
  txSum := e.2.txSum
  samples := e.2.samples

theorem filter_row (q : Uuid × Int → Bool) (rs : List Reading) :
    (rs.map Reading.row).filter (fun r => q r.key) = (rs.filter fun r => q r.key).map Reading.row := by
  rw [List.filter_map]
  rfl

theorem nodup_rows (rs : List Reading) :
    ((mergeRows (rs.map Reading.row) []).map CandleRow.key).Nodup :=
  nodup_mergeRows (show (([] : List CandleRow).map CandleRow.key).Nodup from List.nodup_nil) _

/-- The fold of some keys of the rows made of readings. -/
theorem fold_rows (c : Column) (q : Uuid × Int → Bool) (rs : List Reading) :
    c.fold ((mergeRows (rs.map Reading.row) []).filter fun r => q r.key) =
      c.fold ((rs.filter fun r => q r.key).map Reading.row) := by
  have hnil : (([] : List CandleRow).map CandleRow.key).Nodup := List.nodup_nil
  rw [fold_mergeRows_where hnil, filter_row]
  exact Option.merge_none_left

/-- A row made of readings, as the fold of its own readings. -/
theorem singleton_rows (c : Column) {x : CandleRow} (hx : x ∈ mergeRows (rs.map Reading.row) []) :
    some (c.value x) = c.fold ((rs.filter fun r => decide (r.key = x.key)).map Reading.row) := by
  have hone : (mergeRows (rs.map Reading.row) []).filter (fun r => decide (r.key = x.key)) = [x] := by
    refine Eq.trans (List.filter_congr ?_) (filter_key_eq_singleton (nodup_rows rs) hx)
    intro r _
    rfl
  rw [← fold_rows c (fun k => decide (k = x.key)) rs, hone]
  rfl

theorem fold_rxSum (rs : List Reading) :
    (Column.fold .rxSum (rs.map Reading.row)).getD 0 = ((rs.map Reading.rxBps).sum : Nat) := by
  unfold Column.fold
  change (foldColumn (· + ·) CandleRow.rxSum (rs.map Reading.row)).getD 0 = _
  rw [foldColumn_add, List.map_map, Nat.cast_list_sum, List.map_map]
  rfl

theorem fold_txSum (rs : List Reading) :
    (Column.fold .txSum (rs.map Reading.row)).getD 0 = ((rs.map Reading.txBps).sum : Nat) := by
  unfold Column.fold
  change (foldColumn (· + ·) CandleRow.txSum (rs.map Reading.row)).getD 0 = _
  rw [foldColumn_add, List.map_map, Nat.cast_list_sum, List.map_map]
  rfl

theorem fold_samples (rs : List Reading) :
    (Column.fold .samples (rs.map Reading.row)).getD 0 = rs.length := by
  unfold Column.fold
  change (foldColumn (· + ·) CandleRow.samples (rs.map Reading.row)).getD 0 = _
  rw [foldColumn_add, List.map_map]
  have hone : (CandleRow.samples ∘ Reading.row) = fun _ => (1 : Int) := rfl
  rw [hone]
  simp

/-- The sums of a row made of readings. -/
theorem sums_rows {x : CandleRow} (hx : x ∈ mergeRows (rs.map Reading.row) []) :
    x.rxSum = ((rs.filter fun r => decide (r.key = x.key)).map Reading.rxBps).sum ∧
      x.txSum = ((rs.filter fun r => decide (r.key = x.key)).map Reading.txBps).sum ∧
      x.samples = (rs.filter fun r => decide (r.key = x.key)).length ∧
      0 < (rs.filter fun r => decide (r.key = x.key)).length := by
  have hrx := congrArg (Option.getD · 0) (singleton_rows .rxSum hx)
  have htx := congrArg (Option.getD · 0) (singleton_rows .txSum hx)
  have hcount := congrArg (Option.getD · 0) (singleton_rows .samples hx)
  simp only [fold_rxSum, fold_txSum, fold_samples, Option.getD_some] at hrx htx hcount
  refine ⟨hrx, htx, hcount, List.length_pos_iff.mpr fun hnil => ?_⟩
  have hsome := singleton_rows .rxSum hx
  rw [hnil] at hsome
  cases hsome

/-- A tick is merged into the bar of its id. -/
theorem observeRate_row (r : Rate) (e : Uuid × Bar) (hsamples : 0 < e.2.samples)
    (hrx : 0 ≤ e.2.rxSum) (htx : 0 ≤ e.2.txSum)
    (hrxFits : e.2.rxSum + r.rxBps < 2 ^ 63) (htxFits : e.2.txSum + r.txBps < 2 ^ 63)
    (hsamplesFit : e.2.samples + 1 < 2 ^ 31) :
    barRow minute (e.1, observeRate r e.2) = (r.during minute).row.merge (barRow minute e) := by
  have hrate : toI64 r.rxBps = r.rxBps := toI64_eq ⟨by omega, by omega⟩
  have hrate' : toI64 r.txBps = r.txBps := toI64_eq ⟨by omega, by omega⟩
  have hsum : toI64 (e.2.rxSum + r.rxBps) = e.2.rxSum + r.rxBps := toI64_eq ⟨by omega, hrxFits⟩
  have hsum' : toI64 (e.2.txSum + r.txBps) = e.2.txSum + r.txBps := toI64_eq ⟨by omega, htxFits⟩
  have hcount : toI32 (e.2.samples + 1) = e.2.samples + 1 := toI32_eq (by omega) hsamplesFit
  have hne : e.2.samples ≠ 0 := by omega
  simp only [barRow, observeRate, Bar.observe, CandleRow.merge, Reading.row, Rate.during, hrate,
    hrate', hsum, hsum', hcount, hne, if_false]

/-- The first tick of an id. -/
theorem observeRate_first (r : Rate) (hrx : r.rxBps < 2 ^ 63) (htx : r.txBps < 2 ^ 63) :
    barRow minute (r.id, observeRate r Bar.empty) = (r.during minute).row := by
  have hrate : toI64 r.rxBps = r.rxBps := toI64_eq ⟨by omega, by omega⟩
  have hrate' : toI64 r.txBps = r.txBps := toI64_eq ⟨by omega, by omega⟩
  have hone : toI32 1 = 1 := by decide
  simp only [barRow, observeRate, Bar.observe, Bar.empty, Reading.row, Rate.during, hrate, hrate',
    if_true, Int.zero_add, hone]

/-- Some of the readings fit if all do. -/
theorem Fits.sublist {rs' : List Reading} (h : Fits rs') (hsub : rs.Sublist rs') : Fits rs := by
  intro k
  obtain ⟨hrx, htx, hlength⟩ := h k
  have hfilter := hsub.filter fun r => decide (r.key = k)
  refine ⟨Nat.lt_of_le_of_lt ?_ hrx, Nat.lt_of_le_of_lt ?_ htx,
    Nat.lt_of_le_of_lt hfilter.length_le hlength⟩
  · exact (hfilter.map Reading.rxBps).sum_le_sum fun _ _ => Nat.zero_le _
  · exact (hfilter.map Reading.txBps).sum_le_sum fun _ _ => Nat.zero_le _

/-- One more reading of a key fits. -/
theorem Fits.last {r : Reading} (h : Fits (rs ++ [r])) :
    ((rs.filter fun x => decide (x.key = r.key)).map Reading.rxBps).sum + r.rxBps < 2 ^ 63 ∧
      ((rs.filter fun x => decide (x.key = r.key)).map Reading.txBps).sum + r.txBps < 2 ^ 63 ∧
      (rs.filter fun x => decide (x.key = r.key)).length + 1 < 2 ^ 31 := by
  simpa [List.filter_append] using h r.key

/-- A tick on bars that are made of the readings of their minute. -/
theorem observe_rows (r : Rate)
    (hbars : bars.map (barRow minute) = mergeRows (rs.map Reading.row) [])
    (hfits : Fits (rs ++ [r.during minute])) :
    (observe bars r).map (barRow minute) =
      mergeRows ((rs ++ [r.during minute]).map Reading.row) [] := by
  obtain ⟨hrx, htx, hlength⟩ := hfits.last
  change _ + r.rxBps < 2 ^ 63 at hrx
  change _ + r.txBps < 2 ^ 63 at htx
  have hinsert : mergeRows ((rs ++ [r.during minute]).map Reading.row) [] =
      mergeRow (bars.map (barRow minute)) (r.during minute).row := by
    rw [hbars, List.map_append]
    unfold mergeRows
    rw [List.foldl_append]
    rfl
  rw [hinsert]
  have hany : (bars.any fun e => e.1 == r.id) = (bars.map (barRow minute)).any fun x =>
      x.id == (r.during minute).row.id && x.bucketStart == (r.during minute).row.bucketStart := by
    rw [List.any_map]
    congr 1
    funext e
    simp [barRow, Reading.row, Rate.during]
  unfold observe mergeRow upsertRow
  rw [← hany]
  split
  · -- the bar of the id is the fold of its readings, which fit together with this one
    unfold updateWhere
    rw [List.map_map, List.map_map]
    refine List.map_congr_left ?_
    intro e he
    by_cases hid : e.1 = r.id
    · have hmem : barRow minute e ∈ mergeRows (rs.map Reading.row) [] :=
        hbars ▸ List.mem_map_of_mem he
      have hkey : (barRow minute e).key = (r.during minute).key := by
        change (e.1, minute) = (r.id, minute)
        rw [hid]
      have hsum := sums_rows hmem
      rw [hkey] at hsum
      obtain ⟨hsumRx, hsumTx, hcount, hpos⟩ := hsum
      change e.2.rxSum = _ at hsumRx
      change e.2.txSum = _ at hsumTx
      change e.2.samples = _ at hcount
      have hrow : ((barRow minute e).id == (r.during minute).row.id &&
          (barRow minute e).bucketStart == (r.during minute).row.bucketStart) = true :=
        atRow_iff.mpr hkey
      change barRow minute (if (e.1 == r.id) = true then (e.1, observeRate r e.2) else e) =
        if _ then _ else _
      rw [if_pos (beq_iff_eq.mpr hid), if_pos hrow]
      exact observeRate_row r e (by omega) (by omega) (by omega) (by omega) (by omega) (by omega)
    · simp [hid, barRow, Reading.row, Rate.during]
  · rw [List.map_append, List.map_singleton, observeRate_first r (by omega) (by omega)]

/-- The rates of one tick. -/
theorem observe_all (rates : List Rate)
    (hbars : bars.map (barRow minute) = mergeRows (rs.map Reading.row) [])
    (hfits : Fits (rs ++ rates.map (Rate.during minute))) :
    (rates.foldl observe bars).map (barRow minute) =
      mergeRows ((rs ++ rates.map (Rate.during minute)).map Reading.row) [] := by
  induction rates generalizing bars rs with
  | nil =>
      rwa [List.map_nil, List.append_nil]
  | cons r rates ih =>
      have hcons : rs ++ (r :: rates).map (Rate.during minute) =
          rs ++ [r.during minute] ++ rates.map (Rate.during minute) := by simp
      rw [hcons] at hfits ⊢
      have hfirst : Fits (rs ++ [r.during minute]) := hfits.sublist (List.sublist_append_left _ _)
      exact ih (observe_rows r hbars hfirst) hfits

theorem busyAt_append (rs rs' : List Reading) (k : Uuid × Int) :
    busyAt (rs ++ rs') k = (busyAt rs k || busyAt rs' k) :=
  List.any_append

theorem busyAt_eq_false {k : Uuid × Int} (h : ∀ r ∈ rs, r.key ≠ k) : busyAt rs k = false := by
  refine List.any_eq_false.mpr ?_
  intro r hr
  simp [h r hr]

/-- A bar has traffic if its minute has. -/
theorem traffic_iff {x : CandleRow} (hx : x ∈ mergeRows (rs.map Reading.row) []) :
    (decide (0 < x.rxSum) || decide (0 < x.txSum)) = busyAt rs x.key := by
  obtain ⟨hrx, htx, -, -⟩ := sums_rows hx
  rw [hrx, htx, Bool.eq_iff_iff]
  unfold busyAt
  rw [List.any_eq_true]
  have hpos : ∀ rate : Reading → Nat,
      (0 : Int) < (((rs.filter fun r => decide (r.key = x.key)).map rate).sum : Nat) ↔
        ∃ r ∈ rs, r.key = x.key ∧ 0 < rate r := by
    intro rate
    rw [Int.natCast_pos, List.sum_pos_iff_exists_pos_nat]
    simp [and_assoc]
  simp only [Bool.or_eq_true, decide_eq_true_eq, hpos, Bool.and_eq_true]
  constructor
  · rintro (⟨r, hr, hkey, h⟩ | ⟨r, hr, hkey, h⟩)
    · exact ⟨r, hr, hkey, .inl h⟩
    · exact ⟨r, hr, hkey, .inr h⟩
  · rintro ⟨r, hr, hkey, h | h⟩
    · exact .inl ⟨r, hr, hkey, h⟩
    · exact .inr ⟨r, hr, hkey, h⟩

/-- The flushed rows fold like the readings of minutes with traffic. -/
theorem fold_drained (c : Column) (q : Uuid × Int → Bool)
    (hbars : bars.map (barRow minute) = mergeRows (rs.map Reading.row) []) :
    c.fold ((drainBars bars minute).filter fun r => q r.key) =
      c.fold (((rs.filter fun r => busyAt rs r.key).filter fun r => q r.key).map Reading.row) := by
  have hdrain : drainBars bars minute =
      (bars.map (barRow minute)).filter fun x => decide (0 < x.rxSum) || decide (0 < x.txSum) := by
    rw [List.filter_map]
    rfl
  have hbusy : (bars.map (barRow minute)).filter
        (fun x => decide (0 < x.rxSum) || decide (0 < x.txSum)) =
      (mergeRows (rs.map Reading.row) []).filter fun x => busyAt rs x.key := by
    rw [hbars]
    exact List.filter_congr fun x hx => traffic_iff hx
  rw [hdrain, hbusy, List.filter_filter, List.filter_filter,
    fold_rows c fun k => q k && busyAt rs k]

end Bars

section Run

variable {scope : Scope} {initial : List CandleRow} {past current : List Reading}

/-- The minute of an instant, as a column value. -/
theorem toTimestamp_floorMinute (t : Int) :
    toTimestamp (floorMinute t) = t / 60000000000 * 60000000 := by
  have h : floorMinute t = ofTimestamp (t / 60000000000 * 60000000) := by
    unfold floorMinute ofTimestamp
    dsimp only
    omega
  rw [h, toTimestamp_ofTimestamp]

theorem minute_lt {t t' : Int} (hle : t ≤ t') (hne : floorMinute t ≠ floorMinute t') :
    toTimestamp (floorMinute t) < toTimestamp (floorMinute t') := by
  rw [toTimestamp_floorMinute, toTimestamp_floorMinute]
  unfold floorMinute at hne
  dsimp only at hne
  omega

/-- What concerns one scope. -/
structure Side where
  minute : Option Int
  bars : List (Uuid × Bar)
  minutes : List CandleRow

def State.side (s : State) : Scope → Side
  | .device => ⟨s.acc.minute, s.acc.devices, s.deviceMinutes⟩
  | .server => ⟨s.acc.minute, s.acc.servers, s.serverMinutes⟩

/-- What a tick does to it. -/
def Side.step (scope : Scope) (side : Side) (t : PollTick) : Side :=
  match side.minute with
  | some prev =>
      if prev ≠ floorMinute t.now then
        { minute := some (floorMinute t.now)
          bars := (t.rates scope).foldl observe []
          minutes := flush (drainBars side.bars (toTimestamp prev)) side.minutes }
      else { side with bars := (t.rates scope).foldl observe side.bars }
  | none =>
      { side with
        minute := some (floorMinute t.now)
        bars := (t.rates scope).foldl observe side.bars }

theorem side_step (scope : Scope) (s : State) (t : PollTick) :
    (step s t).side scope = (s.side scope).step scope t := by
  obtain ⟨⟨minute, devices, servers⟩, deviceMinutes, serverMinutes⟩ := s
  cases minute with
  | none =>
      cases scope
      · rfl
      · rfl
  | some prev =>
      by_cases hsame : prev = floorMinute t.now
      · cases scope
        · simp [step, CandleAccumulator.rollTo, State.side, Side.step, PollTick.rates, hsame]
        · simp [step, CandleAccumulator.rollTo, State.side, Side.step, PollTick.rates, hsame]
      · cases scope
        · simp [step, CandleAccumulator.rollTo, State.side, Side.step, PollTick.rates, hsame]
        · simp [step, CandleAccumulator.rollTo, State.side, Side.step, PollTick.rates, hsame]

/-- The flush of a tick goes through in the scope. -/
def Side.FlushOk (side : Side) (t : PollTick) : Prop :=
  ∀ prev, side.minute = some prev → prev ≠ floorMinute t.now →
    (insert1m (drainBars side.bars (toTimestamp prev)) side.minutes).isOk = true

theorem side_flushOk {scope : Scope} {s : State} {t : PollTick} (h : FlushesOk s t) :
    (s.side scope).FlushOk t := by
  intro prev hprev hne
  have hminute : s.acc.minute = some prev := by
    cases scope
    · exact hprev
    · exact hprev
  unfold FlushesOk CandleAccumulator.rollTo at h
  rw [hminute] at h
  simp only [hne, ne_eq, not_false_eq_true, if_true, Option.all_some, Bool.and_eq_true] at h
  cases scope
  · exact h.1
  · exact h.2

/-- A run whose flushes go through is one for each scope. -/
theorem side_along {scope : Scope} {s : State} {ts : List PollTick}
    (h : Along step FlushesOk s ts) : Along (Side.step scope) Side.FlushOk (s.side scope) ts := by
  induction ts generalizing s with
  | nil =>
      trivial
  | cons t ts ih =>
      refine ⟨side_flushOk h.1, ?_⟩
      rw [← side_step]
      exact ih h.2

/-- A flush that goes through. -/
theorem flush_eq {rows minutes : List CandleRow} (h : (insert1m rows minutes).isOk = true) :
    flush rows minutes = mergeRows rows minutes := by
  unfold flush
  cases hinsert : insert1m rows minutes with
  | error e =>
      rw [hinsert] at h
      cases h
  | ok minutes' =>
      exact (insert1m_eq_ok hinsert).1

theorem side_run (scope : Scope) (s : State) (ts : List PollTick) :
    (runEvents step s ts).side scope = runEvents (Side.step scope) (s.side scope) ts := by
  induction ts generalizing s with
  | nil =>
      rfl
  | cons t ts ih =>
      rw [runEvents_cons, runEvents_cons, ih, side_step]

/-- The table holds the readings of the past minutes with traffic, and the bars those of the
minute in progress. -/
structure Holds (side : Side) (initial : List CandleRow) (past current : List Reading) : Prop where
  keys : (side.minutes.map CandleRow.key).Nodup
  boot : side.minute = none → side.bars = [] ∧ past = [] ∧ current = []
  bars : ∀ m, side.minute = some m →
    side.bars.map (barRow (toTimestamp m)) = mergeRows (current.map Reading.row) []
  present : ∀ m, side.minute = some m → ∀ r ∈ current, r.minute = toTimestamp m
  earlier : ∀ m, side.minute = some m → ∀ r ∈ past, r.minute < toTimestamp m
  table : ∀ (c : Column) (q : Uuid × Int → Bool),
    c.fold (side.minutes.filter fun r => q r.key) =
      (c.fold (initial.filter fun r => q r.key)).merge c.op (c.fold
        (((past.filter fun r => busyAt past r.key).filter fun r => q r.key).map Reading.row))

/-- Minutes with traffic, of the past ones and of one more. -/
theorem busy_append {t : Int} (hpast : ∀ r ∈ past, r.minute < t)
    (hcurrent : ∀ r ∈ current, r.minute = t) :
    (past ++ current).filter (fun r => busyAt (past ++ current) r.key) =
      past.filter (fun r => busyAt past r.key) ++
        current.filter fun r => busyAt current r.key := by
  have hapart : ∀ r ∈ past, ∀ r' ∈ current, r.key ≠ r'.key := by
    intro r hr r' hr' hkey
    have hminute : r.minute = r'.minute := congrArg Prod.snd hkey
    have hlt := hpast r hr
    rw [hminute, hcurrent r' hr'] at hlt
    exact absurd hlt (Int.lt_irrefl t)
  rw [List.filter_append]
  congr 1
  · refine List.filter_congr ?_
    intro r hr
    rw [busyAt_append, busyAt_eq_false fun r' hr' => (hapart r hr r' hr').symm, Bool.or_false]
  · refine List.filter_congr ?_
    intro r hr
    rw [busyAt_append, busyAt_eq_false fun r' hr' => hapart r' hr' r hr, Bool.false_or]

theorem readings_minute {t : PollTick} {r : Reading} (hr : r ∈ t.readings scope) :
    r.minute = toTimestamp (floorMinute t.now) := by
  obtain ⟨_, _, rfl⟩ := List.mem_map.mp hr
  rfl

/-- A tick that is not before the minute in progress. -/
theorem Holds.step {side : Side} (h : Holds side initial past current) (t : PollTick)
    (hfits : Fits (current ++ t.readings scope)) (hflush : side.FlushOk t)
    (hclock : ∀ m, side.minute = some m → ∃ t₀, m = floorMinute t₀ ∧ t₀ ≤ t.now) :
    ∃ past' current', past' ++ current' = past ++ current ++ t.readings scope ∧
      Holds (side.step scope t) initial past' current' := by
  have hnew : ((t.rates scope).foldl observe []).map (barRow (toTimestamp (floorMinute t.now))) =
      mergeRows (([] ++ t.readings scope).map Reading.row) [] :=
    observe_all (t.rates scope) rfl (hfits.sublist (List.sublist_append_right _ _))
  unfold Side.step
  split
  · rename_i prev hprev
    obtain ⟨t₀, rfl, hle⟩ := hclock prev hprev
    split
    · -- the minute is flushed
      rename_i hne
      have hlt := minute_lt hle hne
      rw [flush_eq (hflush _ hprev hne)]
      refine ⟨past ++ current, t.readings scope, rfl, ?_⟩
      constructor
      case keys =>
        exact nodup_mergeRows h.keys _
      case boot =>
        intro hnone
        cases hnone
      case bars =>
        rintro m ⟨⟩
        exact hnew
      case present =>
        rintro m ⟨⟩ r hr
        exact readings_minute hr
      case earlier =>
        rintro m ⟨⟩ r hr
        rcases List.mem_append.mp hr with hr | hr
        · exact Int.lt_trans (h.earlier _ hprev r hr) hlt
        · rw [h.present _ hprev r hr]
          exact hlt
      case table =>
        intro c q
        have hassoc : Std.Associative (Option.merge c.op) := inferInstance
        rw [fold_mergeRows_where h.keys, h.table c q, fold_drained c q (h.bars _ hprev),
          hassoc.assoc, busy_append (h.earlier _ hprev) (h.present _ hprev), List.filter_append,
          List.map_append]
        unfold Column.fold
        rw [foldColumn_append]
    · rename_i heq
      have hsame : floorMinute t₀ = floorMinute t.now := not_not.mp heq
      refine ⟨past, current ++ t.readings scope, (List.append_assoc ..).symm, ?_⟩
      constructor
      case keys =>
        exact h.keys
      case boot =>
        intro hnone
        rw [hprev] at hnone
        cases hnone
      case bars =>
        intro m hm
        rw [hprev] at hm
        cases hm
        have hbars := h.bars _ hprev
        rw [hsame] at hbars ⊢
        exact observe_all (t.rates scope) hbars hfits
      case present =>
        intro m hm r hr
        rw [hprev] at hm
        cases hm
        rcases List.mem_append.mp hr with hr | hr
        · exact h.present _ hprev r hr
        · rw [readings_minute hr, hsame]
      case earlier =>
        exact h.earlier
      case table =>
        exact h.table
  · rename_i hnone
    obtain ⟨hbars, rfl, rfl⟩ := h.boot hnone
    refine ⟨[], t.readings scope, rfl, ?_⟩
    constructor
    case keys =>
      exact h.keys
    case boot =>
      intro hminute
      cases hminute
    case bars =>
      rintro m ⟨⟩
      rw [hbars]
      exact hnew
    case present =>
      rintro m ⟨⟩ r hr
      exact readings_minute hr
    case earlier =>
      rintro m _ r hr
      cases hr
    case table =>
      exact h.table

theorem step_minute (side : Side) (t : PollTick) :
    (side.step scope t).minute = some (floorMinute t.now) := by
  unfold Side.step
  split
  · rename_i prev hprev
    split
    · rfl
    · rename_i heq
      rw [not_not.mp heq] at hprev
      exact hprev
  · rfl

/-- A run of ticks in the order of time. -/
theorem Holds.run {side : Side} (ts : List PollTick) (h : Holds side initial past current)
    (hsorted : ts.Pairwise fun t t' => t.now ≤ t'.now)
    (hfits : Fits (past ++ current ++ readings scope ts))
    (hflushes : Along (Side.step scope) Side.FlushOk side ts)
    (hclock : ∀ m, side.minute = some m → ∃ t₀, m = floorMinute t₀ ∧ ∀ t ∈ ts, t₀ ≤ t.now) :
    ∃ past' current', past' ++ current' = past ++ current ++ readings scope ts ∧
      Holds (runEvents (Side.step scope) side ts) initial past' current' := by
  induction ts generalizing side past current with
  | nil =>
      exact ⟨past, current, by simp [readings], h⟩
  | cons t ts ih =>
      obtain ⟨hfirst, hrest⟩ := List.pairwise_cons.mp hsorted
      have hcons : past ++ current ++ readings scope (t :: ts) =
          past ++ current ++ t.readings scope ++ readings scope ts := by
        simp [readings]
      rw [hcons] at hfits
      have hhere : Fits (current ++ t.readings scope) := by
        refine hfits.sublist ?_
        rw [List.append_assoc, List.append_assoc, ← List.append_assoc current]
        exact (List.sublist_append_left _ _).trans (List.sublist_append_right _ _)
      obtain ⟨past₁, current₁, hall, h₁⟩ := h.step t hhere hflushes.1 fun m hm => by
        obtain ⟨t₀, ht₀, hle⟩ := hclock m hm
        exact ⟨t₀, ht₀, hle t List.mem_cons_self⟩
      rw [← hall] at hfits hcons
      obtain ⟨past₂, current₂, hall₂, h₂⟩ := ih h₁ hrest hfits hflushes.2 fun m hm => by
        rw [step_minute] at hm
        cases hm
        exact ⟨t.now, rfl, hfirst⟩
      exact ⟨past₂, current₂, hall₂.trans hcons.symm, h₂⟩

/-- A candle of rows that fold like some readings. -/
theorem candleOf_eq_direct {series : Series} {b : Int} {rows : List CandleRow} {rs : List Reading}
    (hfold : ∀ c : Column, c.fold rows = c.fold (rs.map Reading.row)) (hne : rs ≠ []) :
    directCandle b rs = some (candleOf series b rows) := by
  have hlength := List.length_pos_iff.mpr hne
  have hsamples := fold_samples rs
  have hrx := fold_rxSum rs
  have htx := fold_txSum rs
  unfold directCandle candleOf
  rw [if_neg hne, dayCandle_congr hfold b series.id]
  unfold Column.fold at hsamples hrx htx
  simp only [Column.op, Column.value] at hsamples hrx htx
  simp only [decodeCandle, dayCandle, hsamples, hrx, htx]
  simp only [foldColumn_map, Reading.row]
  have hmax : max (rs.length : Int) 1 = rs.length := by omega
  rw [hmax, Int.tdiv_eq_ediv_of_nonneg (by omega), Int.tdiv_eq_ediv_of_nonneg (by omega),
    Int.natCast_ediv, Int.natCast_ediv]

theorem holds_boot (deviceMinutes serverMinutes : List CandleRow) (scope : Scope)
    (hkeys : (((boot deviceMinutes serverMinutes).minutes scope).map CandleRow.key).Nodup) :
    Holds ((boot deviceMinutes serverMinutes).side scope)
      ((boot deviceMinutes serverMinutes).minutes scope) [] [] := by
  have hnone : ((boot deviceMinutes serverMinutes).side scope).minute = none := by
    cases scope
    · rfl
    · rfl
  have hminutes : ((boot deviceMinutes serverMinutes).side scope).minutes =
      (boot deviceMinutes serverMinutes).minutes scope := by
    cases scope
    · rfl
    · rfl
  constructor
  case keys =>
    rw [hminutes]
    exact hkeys
  case boot =>
    intro _
    refine ⟨?_, rfl, rfl⟩
    cases scope
    · rfl
    · rfl
  case bars =>
    intro m hm
    rw [hnone] at hm
    cases hm
  case present =>
    intro m _ r hr
    cases hr
  case earlier =>
    intro m _ r hr
    cases hr
  case table =>
    intro c q
    rw [hminutes]
    exact Option.merge_none_right.symm

theorem store_rows (s : State) (rest : CandleStore) (scope : Scope) (id : Uuid) :
    (s.store rest).rows false (seriesOf id scope) =
      (s.side scope).minutes.filter (·.id == id) := by
  cases scope
  · rfl
  · rfl

theorem side_minute (s : State) (scope : Scope) : (s.side scope).minute = s.acc.minute := by
  cases scope
  · rfl
  · rfl

theorem seriesOf_bars (id : Uuid) (scope : Scope) (rows : List CandleRow) :
    (seriesOf id scope).bars rows = rows := by
  cases scope
  · rfl
  · rfl

/-- The key is one of the bucket, and older than the cursor. -/
def inBucket (id : Uuid) (tf : Timeframe) (b : Int) (before : Option Int) (k : Uuid × Int) :
    Bool :=
  k.1 == id && (tf.bucket k.2 == b) && olderThan (fun t => t) before k.2

/-- The rows of an id in a bucket, by their keys. -/
theorem bucketRows_eq (rows : List CandleRow) (id : Uuid) (tf : Timeframe) (b : Int)
    (before : Option Int) :
    bucketRows tf before b (rows.filter (·.id == id)) =
      rows.filter fun r => inBucket id tf b before r.key := by
  unfold bucketRows inBucket
  rw [List.filter_filter]
  refine List.filter_congr ?_
  intro r _
  simp only [CandleRow.key]
  ac_rfl

theorem counted_eq (rs : List Reading) (id : Uuid) (tf : Timeframe) (b : Int)
    (before : Option Int) :
    counted rs id tf b before =
      (rs.filter fun r => busyAt rs r.key).filter fun r => inBucket id tf b before r.key := by
  unfold counted inBucket
  rw [List.filter_filter, olderThan_eq]
  refine List.filter_congr ?_
  intro r _
  simp only [Reading.key]
  ac_rfl

section Buckets

variable {side : Side} {id : Uuid} {tf : Timeframe} {b : Int} {before : Option Int}

/-- The rows of a bucket fold like those that were there and the readings of past minutes. -/
theorem fold_bucketRows (h : Holds side initial past current) (c : Column) :
    c.fold (bucketRows tf before b (side.minutes.filter (·.id == id))) =
      c.fold (bucketParts initial past id tf b before) := by
  unfold bucketParts
  rw [bucketRows_eq, bucketRows_eq, counted_eq, h.table c fun k => inBucket id tf b before k]
  unfold Column.fold
  rw [foldColumn_append]

/-- The readings that count, of the past minutes and of the one in progress. -/
theorem counted_append (h : Holds side initial past current) :
    counted (past ++ current) id tf b before =
      counted past id tf b before ++ counted current id tf b before := by
  rw [counted_eq, counted_eq, counted_eq]
  cases hminute : side.minute with
  | none =>
      obtain ⟨_, rfl, rfl⟩ := h.boot hminute
      rfl
  | some m =>
      rw [busy_append (h.earlier m hminute) (h.present m hminute), List.filter_append]

/-- The parts of a bucket whose minutes were flushed and that was empty before. -/
theorem bucketParts_flushed (h : Holds side initial past current)
    (hflushed : ∀ m, side.minute = some m → tf.bucket (toTimestamp m) ≠ b)
    (hfresh : ∀ r ∈ initial, r.id = id → tf.bucket r.bucketStart ≠ b) :
    bucketParts initial past id tf b before =
      (counted (past ++ current) id tf b before).map Reading.row := by
  have hinitial : initial.filter (fun r => inBucket id tf b before r.key) = [] := by
    refine List.filter_eq_nil_iff.mpr ?_
    intro r hr hin
    unfold inBucket at hin
    simp only [Bool.and_eq_true, beq_iff_eq] at hin
    exact hfresh r hr hin.1.1 hin.1.2
  have hcurrent : counted current id tf b before = [] := by
    refine List.filter_eq_nil_iff.mpr ?_
    intro r hr hin
    simp only [Bool.and_eq_true, beq_iff_eq] at hin
    cases hminute : side.minute with
    | none =>
        obtain ⟨_, _, rfl⟩ := h.boot hminute
        cases hr
    | some m =>
        refine hflushed m hminute ?_
        rw [← h.present m hminute r hr]
        exact hin.1.2
  unfold bucketParts
  rw [bucketRows_eq, hinitial, counted_append h, hcurrent, List.append_nil, List.nil_append]

/-- A cursor and the minute in progress only take parts away. -/
theorem bucketParts_sublist (h : Holds side initial past current) :
    (bucketParts initial past id tf b before).Sublist
      (bucketParts initial (past ++ current) id tf b none) := by
  unfold bucketParts
  refine List.Sublist.append ?_ (List.Sublist.map _ ?_)
  · refine List.monotone_filter_right _ ?_
    intro r hr
    exact (Bool.and_eq_true_iff.mp hr).2
  · have hcursor : (counted past id tf b before).Sublist (counted past id tf b none) := by
      refine List.monotone_filter_right _ ?_
      intro r hr
      exact Bool.and_eq_true_iff.mpr ⟨(Bool.and_eq_true_iff.mp hr).1, rfl⟩
    rw [counted_append h]
    exact hcursor.trans (List.sublist_append_left _ _)

end Buckets

section Bounds

variable {rows parts : List CandleRow}

/-- A greatest or least value is that of a row. -/
theorem fold_pick {c : Column} (hpick : ∀ x y, c.op x y = x ∨ c.op x y = y)
    (h : ∀ r ∈ rows, inI64 (c.value r)) : inI64 ((c.fold rows).getD 0) := by
  unfold Column.fold
  induction rows with
  | nil =>
      exact (by decide : inI64 0)
  | cons r rows ih =>
      obtain ⟨hr, hrows⟩ := List.forall_mem_cons.mp h
      have hrest := ih hrows
      rw [foldColumn_cons]
      cases hfold : foldColumn c.op c.value rows with
      | none =>
          exact hr
      | some x =>
          rw [hfold] at hrest
          change inI64 (c.op (c.value r) x)
          rcases hpick (c.value r) x with heq | heq
          · rw [heq]
            exact hr
          · rw [heq]
            exact hrest

theorem natAbs_sum_le (f : CandleRow → Int) (rows : List CandleRow) :
    (rows.map f).sum.natAbs ≤ (rows.map fun r => (f r).natAbs).sum := by
  induction rows with
  | nil =>
      exact Nat.le_refl _
  | cons r rows ih =>
      have hadd := Int.natAbs_add_le (f r) (rows.map f).sum
      simp only [List.map_cons, List.sum_cons]
      omega

/-- A sum whose parts are small together. -/
theorem fold_add {c : Column} (hop : c.op = (· + ·)) (hsub : rows.Sublist parts)
    (hsum : (parts.map fun r => (c.value r).natAbs).sum < 2 ^ 63) :
    inI64 ((c.fold rows).getD 0) := by
  have hfold : (c.fold rows).getD 0 = (rows.map c.value).sum := by
    unfold Column.fold
    rw [hop, foldColumn_add]
  have habs := natAbs_sum_le c.value rows
  have hless := (hsub.map fun r => (c.value r).natAbs).sum_le_sum fun _ _ => Nat.zero_le _
  rw [hfold]
  constructor
  · omega
  · omega

/-- A candle made of some parts of a bucket that fits. -/
theorem bigint_of_fits {b : Int} {id : Uuid} (hsub : rows.Sublist parts)
    (hvalues : ∀ r ∈ rows, r.Bigint)
    (hsums : ∀ c ∈ [Column.rxSum, Column.txSum, Column.samples],
      (parts.map fun r => (c.value r).natAbs).sum < 2 ^ 63) :
    (dayCandle b id rows).Bigint := by
  intro c
  have hvalue : c.value (dayCandle b id rows) = (c.fold rows).getD 0 := by
    cases c
    all_goals rfl
  rw [hvalue]
  cases c with
  | rxHigh =>
      exact fold_pick max_choice fun r hr => hvalues r hr .rxHigh
  | rxLow =>
      exact fold_pick min_choice fun r hr => hvalues r hr .rxLow
  | rxSum =>
      exact fold_add rfl hsub (hsums .rxSum (by simp))
  | txHigh =>
      exact fold_pick max_choice fun r hr => hvalues r hr .txHigh
  | txLow =>
      exact fold_pick min_choice fun r hr => hvalues r hr .txLow
  | txSum =>
      exact fold_add rfl hsub (hsums .txSum (by simp))
  | samples =>
      exact fold_add rfl hsub (hsums .samples (by simp))

/-- A row of the table has figures that fit a `BIGINT`. -/
theorem bigint_of_storable {r : CandleRow} (h : r.Storable) : r.Bigint := by
  intro c
  cases c with
  | samples =>
      obtain ⟨hlo, hhi⟩ : inI32 r.samples := h .samples
      constructor
      · change -2 ^ 63 ≤ r.samples
        omega
      · change r.samples < 2 ^ 63
        omega
  | rxHigh =>
      exact h .rxHigh
  | rxLow =>
      exact h .rxLow
  | rxSum =>
      exact h .rxSum
  | txHigh =>
      exact h .txHigh
  | txLow =>
      exact h .txLow
  | txSum =>
      exact h .txSum

/-- A reading of a minute that fits. -/
theorem Fits.bigint {rs : List Reading} (h : Fits rs) {r : Reading} (hr : r ∈ rs) :
    r.row.Bigint := by
  obtain ⟨hrx, htx, -⟩ := h r.key
  have hmem : r ∈ rs.filter fun x => decide (x.key = r.key) :=
    List.mem_filter.mpr ⟨hr, decide_eq_true rfl⟩
  have hrxLe := List.le_sum_of_mem (List.mem_map_of_mem (f := Reading.rxBps) hmem)
  have htxLe := List.le_sum_of_mem (List.mem_map_of_mem (f := Reading.txBps) hmem)
  have hrx' : inI64 r.rxBps := ⟨by omega, by omega⟩
  have htx' : inI64 r.txBps := ⟨by omega, by omega⟩
  intro c
  cases c with
  | samples =>
      exact (by decide : inI64 1)
  | rxHigh | rxLow | rxSum =>
      exact hrx'
  | txHigh | txLow | txSum =>
      exact htx'

/-- Every bucket of a table in range is in range if its sums are. -/
theorem Holds.bigint_bucket {side : Side} {initial : List CandleRow} {past current : List Reading}
    {id id' : Uuid} {tf : Timeframe} {b b' : Int} {before : Option Int}
    (h : Holds side initial past current) (hstorable : ∀ r ∈ initial, r.Storable)
    (hfits : Fits (past ++ current)) (hbucket : BucketFits initial (past ++ current) id tf b) :
    (dayCandle b' id' (bucketParts initial past id tf b before)).Bigint := by
  refine bigint_of_fits (bucketParts_sublist h) ?_ hbucket
  intro r hr
  rcases List.mem_append.mp hr with hr | hr
  · exact bigint_of_storable (hstorable r (List.mem_filter.mp (List.mem_filter.mp hr).1).1)
  · obtain ⟨reading, hreading, rfl⟩ := List.mem_map.mp hr
    exact hfits.bigint (List.mem_append_left _ (List.mem_filter.mp hreading).1)

end Bounds

/--
In a run of ticks in the order of time whose flushes go through and whose minutes
and buckets stay within their bounds, queries of a fine timeframe succeed.  The
candle of a bucket whose minutes were all flushed is the fold of the ticks of its
minutes with traffic, and there is one if there were any.
-/
theorem candles_are_folds (deviceMinutes serverMinutes : List CandleRow)
    (hkeys : ∀ scope, (((boot deviceMinutes serverMinutes).minutes scope).map CandleRow.key).Nodup)
    (hstorable : ∀ scope, ∀ r ∈ (boot deviceMinutes serverMinutes).minutes scope, r.Storable)
    (ts : List PollTick) (hsorted : ts.Pairwise fun t t' => t.now ≤ t'.now)
    (hflushes : Along step FlushesOk (boot deviceMinutes serverMinutes) ts)
    (hfits : ∀ scope, Fits (readings scope ts)) (rest : CandleStore)
    (scope : Scope) (id : Uuid) (tf : Timeframe) (hfine : tf.usesDaily = false)
    (hbuckets : ∀ b, BucketFits ((boot deviceMinutes serverMinutes).minutes scope)
      (readings scope ts) id tf b)
    (b : Int) (hflushed : (runEvents step (boot deviceMinutes serverMinutes) ts).Flushed tf b)
    (hfresh : ∀ r ∈ (boot deviceMinutes serverMinutes).minutes scope,
      r.id = id → tf.bucket r.bucketStart ≠ b)
    (plan : Plan) (before : Option Int) (limit : Option Nat) :
    let store := (runEvents step (boot deviceMinutes serverMinutes) ts).store rest
    ∃ candles, store.candles plan (seriesOf id scope) tf before limit = .ok candles ∧
      (∀ c ∈ candles, c.bucketStart = b →
        directCandle b (counted (readings scope ts) id tf b before) = some c) ∧
      (limit = none → ∀ c,
        directCandle b (counted (readings scope ts) id tf b before) = some c → c ∈ candles) := by
  intro store
  have hboot := holds_boot deviceMinutes serverMinutes scope (hkeys scope)
  obtain ⟨past, current, hall, h⟩ := hboot.run ts hsorted (hfits scope) (side_along hflushes)
    fun m hm => by
      rw [side_minute] at hm
      cases hm
  rw [← side_run] at h
  change past ++ current = readings scope ts at hall
  have hrows : store.rows tf.usesDaily (seriesOf id scope) =
      ((runEvents step (boot deviceMinutes serverMinutes) ts).side scope).minutes.filter
        (·.id == id) := by
    rw [hfine]
    exact store_rows ..
  have hparts : ∀ b' (c : Column),
      c.fold (bucketRows tf before b' (store.rows tf.usesDaily (seriesOf id scope))) =
        c.fold (bucketParts ((boot deviceMinutes serverMinutes).minutes scope) past id tf b'
          before) := by
    intro b' c
    rw [hrows]
    exact fold_bucketRows h c
  -- every bucket is in range, so that the query succeeds
  have hquery : ∃ candles, store.candles plan (seriesOf id scope) tf before limit = .ok candles := by
    refine answer_of_bigint ?_
    intro b' _
    rw [seriesOf_bars, dayCandle_congr (hparts b')]
    exact h.bigint_bucket (hstorable scope) (hall ▸ hfits scope) (hall ▸ hbuckets b')
  have hfold : ∀ c : Column,
      c.fold (bucketRows tf before b (store.rows tf.usesDaily (seriesOf id scope))) =
        c.fold ((counted (readings scope ts) id tf b before).map Reading.row) := by
    intro c
    rw [hparts, bucketParts_flushed h (fun m hm => hflushed m (side_minute _ scope ▸ hm)) hfresh,
      hall]
  have hempty : bucketRows tf before b (store.rows tf.usesDaily (seriesOf id scope)) = [] ↔
      counted (readings scope ts) id tf b before = [] := by
    have hnone : ∀ rows, Column.fold .samples rows = none ↔ rows = [] := fun _ =>
      foldColumn_eq_none _
    rw [← hnone, hfold .samples, hnone, List.map_eq_nil_iff]
  obtain ⟨candles, hok⟩ := hquery
  refine ⟨candles, hok, ?_, ?_⟩
  · rintro c hc rfl
    obtain ⟨hne, hcandle, _⟩ := candle_of_answer hok hc
    rw [hcandle, seriesOf_bars]
    exact candleOf_eq_direct hfold (mt hempty.mpr hne)
  · rintro rfl c hc
    have hne : counted (readings scope ts) id tf b before ≠ [] := by
      intro hnil
      rw [hnil] at hc
      cases hc
    have hdirect : directCandle b (counted (readings scope ts) id tf b before) =
        some (candleOf (seriesOf id scope) b _) := candleOf_eq_direct hfold hne
    rw [hc] at hdirect
    cases hdirect
    rw [answer_eq hok]
    refine (mem_allCandles.mpr ⟨mt hempty.mp hne, ?_⟩).1
    rw [seriesOf_bars]

/-- Ticks whose rates are small altogether. -/
theorem fits_of_total {rs : List Reading} (hrx : (rs.map Reading.rxBps).sum < 2 ^ 63)
    (htx : (rs.map Reading.txBps).sum < 2 ^ 63) (hlength : rs.length < 2 ^ 31) : Fits rs := by
  intro k
  have hfilter : (rs.filter fun r => decide (r.key = k)).Sublist rs := List.filter_sublist
  refine ⟨Nat.lt_of_le_of_lt ?_ hrx, Nat.lt_of_le_of_lt ?_ htx,
    Nat.lt_of_le_of_lt hfilter.length_le hlength⟩
  · exact (hfilter.map Reading.rxBps).sum_le_sum fun _ _ => Nat.zero_le _
  · exact (hfilter.map Reading.txBps).sum_le_sum fun _ _ => Nat.zero_le _

/-- Their buckets fit into empty tables. -/
theorem bucketFits_of_total {rs : List Reading} (hrx : (rs.map Reading.rxBps).sum < 2 ^ 63)
    (htx : (rs.map Reading.txBps).sum < 2 ^ 63) (hlength : rs.length < 2 ^ 31) (id : Uuid)
    (tf : Timeframe) (b : Int) : BucketFits [] rs id tf b := by
  have hfilter : (counted rs id tf b none).Sublist rs := List.filter_sublist
  have hparts : ∀ c : Column, (bucketParts [] rs id tf b none).map (fun r => (c.value r).natAbs) =
      (counted rs id tf b none).map fun r => (c.value r.row).natAbs := fun c => List.map_map ..
  intro c hc
  rw [hparts]
  refine Nat.lt_of_le_of_lt
    ((hfilter.map fun r => (c.value r.row).natAbs).sum_le_sum fun _ _ => Nat.zero_le _) ?_
  simp only [List.mem_cons, List.not_mem_nil, or_false] at hc
  rcases hc with rfl | rfl | rfl
  · exact hrx
  · exact htx
  · have hone : (fun r : Reading => (Column.value .samples r.row).natAbs) = fun _ => 1 := rfl
    rw [hone, List.map_const', List.sum_replicate_nat, Nat.mul_one]
    omega

/-- A tick of device 20 some seconds after 2026-06-01. -/
def pollTick (seconds : Int) (rxBps txBps : Nat) : PollTick :=
  ⟨(1780272000 + seconds) * 1000000000, [⟨20, rxBps, txBps⟩], []⟩

/-- The second minute is idle. -/
def chartTicks : List PollTick :=
  [pollTick 10 100 8, pollTick 20 0 0, pollTick 65 0 0, pollTick 130 50 50, pollTick 900 7 7]

/-- The first quarter of an hour has three ticks that count. -/
theorem candles_are_folds_sample :
    ∃ candles, ((runEvents step (boot [] []) chartTicks).store (sampleStore [])).candles .all
        (seriesOf 20 .device) .m15 none none = .ok candles ∧
      (⟨1780272000 * 1000000, 100, 0, 50, 50, 0, 19⟩ : Candle) ∈ candles := by
  have hfits : ∀ scope, Fits (readings scope chartTicks) := by
    intro scope
    cases scope
    · exact fits_of_total (by decide) (by decide) (by decide)
    · exact fits_of_total (by decide) (by decide) (by decide)
  have hkeys : ∀ scope, (((boot [] []).minutes scope).map CandleRow.key).Nodup := by
    intro scope
    cases scope
    · exact List.nodup_nil
    · exact List.nodup_nil
  have hstorable : ∀ scope, ∀ r ∈ (boot [] []).minutes scope, r.Storable := by
    intro scope r hr
    cases scope
    · cases hr
    · cases hr
  have hflushed : (runEvents step (boot [] []) chartTicks).Flushed .m15 (1780272000 * 1000000) := by
    intro m hm
    have hminute : (runEvents step (boot [] []) chartTicks).acc.minute =
        some (1780272900 * 1000000000) := by decide
    rw [hminute] at hm
    cases hm
    decide
  obtain ⟨candles, hok, _, hall⟩ := candles_are_folds [] [] hkeys hstorable chartTicks
    (by decide) (by decide) hfits (sampleStore []) .device 20 .m15 rfl
    (bucketFits_of_total (by decide) (by decide) (by decide) 20 .m15) _
    hflushed (fun r hr => by cases hr) .all none none
  exact ⟨candles, hok, hall rfl _ (by decide)⟩

/-- Two ticks of 2^62 bits per second: the sum of the minute wraps to a negative number, and the
minute is dropped as idle. -/
theorem busiest_minute_is_dropped :
    let ts := [pollTick 10 (2 ^ 62) 0, pollTick 20 (2 ^ 62) 0, pollTick 65 0 0]
    let s := runEvents step (boot [] []) ts
    ts.Pairwise (fun t t' => t.now ≤ t'.now) ∧
      (∀ t ∈ ts, ∀ r ∈ t.devices, r.rxBps < 2 ^ 63 ∧ r.txBps < 2 ^ 63) ∧
      Along step FlushesOk (boot [] []) ts ∧
      s.Flushed .m1 (1780272000 * 1000000) ∧
      (s.store (sampleStore [])).candles .all (.device 20) .m1 none none = .ok [] ∧
      directCandle (1780272000 * 1000000)
          (counted (readings .device ts) 20 .m1 (1780272000 * 1000000) none) =
        some ⟨1780272000 * 1000000, 2 ^ 62, 2 ^ 62, 2 ^ 62, 0, 0, 0⟩ := by
  intro ts s
  refine ⟨by decide, by decide, by decide, ?_, by decide,
    by decide⟩
  intro m hm
  have hminute : s.acc.minute = some (1780272060 * 1000000000) := by decide
  rw [hminute] at hm
  cases hm
  decide

end Run

end CandleFold
end Worker
end ZeroVpn
