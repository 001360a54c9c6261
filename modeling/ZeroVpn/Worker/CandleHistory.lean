import ZeroVpn.Db.Candles
import ZeroVpn.Library.Machine
import ZeroVpn.Worker.Aggregator

/-!
# Daily candles under re-rolls and pruning

The poller flushes the bars of a finished minute, the aggregator re-rolls the
current and the previous day on every pass, and the retention pass deletes old
rows, each at its own time.  A roll-up reads whatever minute rows are left, and
it overwrites the candle of an id that has any.

A bar adds in `i64` and counts in `i32`, and both wrap.  A flush or a roll-up
with a figure that its table cannot hold fails, and writes nothing.

Next to the tables the state keeps the rows that were ever flushed, the minute
rows that were pruned, and the days that were rolled up after their end with all
their minute rows present.

* `daily_candles_final`: the candles of these days stay the fold of everything
  flushed for them exactly in the runs that never re-roll such a day of which
  some minute rows of an id are gone and others are left;
* `rerollsWhole_of_two_days`: windows of at least two days are enough for that.
-/

namespace ZeroVpn

open Library Db Db.Candles
open Db.Bandwidth (microsPerDay microsPerHour toTimestamp_days toTimestamp_nextDay)

namespace Worker
namespace CandleHistory

/-- A candle that is being filled. -/
structure Bar where
  rxHigh : Int
  rxLow : Int
  rxSum : Int
  txHigh : Int
  txLow : Int
  txSum : Int
  samples : Int
  deriving DecidableEq, Repr

/-- `Bar::default`. -/
def Bar.empty : Bar := ⟨0, 0, 0, 0, 0, 0, 0⟩

/-- The value of an `i64` after a cast or an addition. -/
def toI64 (x : Int) : Int := x.bmod (2 ^ 64)

def toI32 (x : Int) : Int := x.bmod (2 ^ 32)

def Bar.observe (b : Bar) (rxBps txBps : Int) : Bar where
  rxHigh := if b.samples = 0 then rxBps else max b.rxHigh rxBps
  rxLow := if b.samples = 0 then rxBps else min b.rxLow rxBps
  rxSum := toI64 (b.rxSum + rxBps)
  txHigh := if b.samples = 0 then txBps else max b.txHigh txBps
  txLow := if b.samples = 0 then txBps else min b.txLow txBps
  txSum := toI64 (b.txSum + txBps)
  samples := toI32 (b.samples + 1)

def Bar.hasTraffic (b : Bar) : Bool := decide (0 < b.rxSum) || decide (0 < b.txSum)

/-- The bar of the rates that were observed during a minute. -/
def barOf (rates : List (Int × Int)) : Bar :=
  rates.foldl (fun b rate => b.observe rate.1 rate.2) Bar.empty

/-- The rates that an id had at the ticks of a minute.  Ticks are a second apart or more, so that
there are far fewer than an `i32` counts. -/
structure Ticks where
  rates : List (Int × Int)
  few : rates.length < 2 ^ 31
  deriving DecidableEq

/-- `drain_bars`: the rows of the bars that saw traffic. -/
def drainBars (bars : List (Uuid × Bar)) (bucket : Int) : List CandleRow :=
  (bars.filter fun entry => entry.2.hasTraffic).map fun entry =>
    { id := entry.1
      bucketStart := bucket
      rxHigh := entry.2.rxHigh
      rxLow := entry.2.rxLow
      rxSum := entry.2.rxSum
      txHigh := entry.2.txHigh
      txLow := entry.2.txLow
      txSum := entry.2.txSum
      samples := entry.2.samples }

/-- `floor_minute`. -/
def floorMinute (t : Int) : Int :=
  let secs := t / 1000000000
  (secs - secs % 60) * 1000000000

inductive Scope where
  | device
  | server
  deriving DecidableEq, Repr

/-- The two candle tables of a scope, and what happened to them. -/
structure Table where
  minutes : List CandleRow
  daily : List CandleRow
  /-- Every minute row that was ever flushed. -/
  flushed : List CandleRow
  /-- The minute rows that were pruned. -/
  lost : List CandleRow
  /-- The days that were rolled up after their end with nothing of them lost and
  nothing flushed for them since. -/
  settled : List Int
  /-- The cutoffs that the daily table was pruned with. -/
  dailyCuts : List Int
  deriving DecidableEq, Repr

/-- The table after the rows of a flush. -/
def Table.merged (t : Table) (rows : List CandleRow) : Table :=
  { t with
    minutes := mergeRows rows t.minutes
    flushed := t.flushed ++ rows
    settled := t.settled.filter fun lo => !rows.any (between lo (lo + microsPerDay)) }

def Table.flush (t : Table) (rows : List CandleRow) : Table :=
  match insert1m rows t.minutes with
  | .ok _ => t.merged rows
  | .error _ => t

/-- The table after a roll-up that left this daily table. -/
def Table.rolled (t : Table) (now lo hi : Int) (daily : List CandleRow) : Table :=
  { t with
    daily := daily
    settled := if hi ≤ now / 1000 ∧ t.lost.any (between lo hi) = false then lo :: t.settled
      else t.settled }

def Table.rollup (t : Table) (now dayStart dayEnd : Int) : Table :=
  match rollupDaily dayStart dayEnd t.minutes t.daily with
  | .ok daily => t.rolled now (toTimestamp dayStart) (toTimestamp dayEnd) daily
  | .error _ => t

def Table.pruneMinutes (t : Table) (cut : Int) : Table :=
  { t with
    minutes := pruneRows cut t.minutes
    lost := t.lost ++ t.minutes.filter fun r => !decide (cut ≤ r.bucketStart) }

def Table.pruneDaily (t : Table) (cut : Int) : Table :=
  { t with
    daily := pruneRows cut t.daily
    dailyCuts := cut :: t.dailyCuts }

structure State where
  now : Int
  /-- The candle statements that the aggregator's pass has still to send. -/
  pass : Option (List Rollup)
  devices : Table
  servers : Table
  deriving DecidableEq, Repr

def State.table (s : State) : Scope → Table
  | .device => s.devices
  | .server => s.servers

def State.update (s : State) (scope : Scope) (f : Table → Table) : State :=
  match scope with
  | .device => { s with devices := f s.devices }
  | .server => { s with servers := f s.servers }

/-- A statement that reaches the server. -/
def State.rollup (s : State) : Rollup → State
  | .deviceCandles dayStart dayEnd => s.update .device fun t => t.rollup s.now dayStart dayEnd
  | .serverCandles dayStart dayEnd => s.update .server fun t => t.rollup s.now dayStart dayEnd
  | .hourly _ => s
  | .daily _ => s

def State.statement (s : State) (ok : Bool) : State :=
  match s.pass with
  | some (q :: rest) =>
      { (if ok then s.rollup q else s) with pass := if rest = [] then none else some rest }
  | _ => s

/-- The cutoff of a window; an unbounded one maps to the Unix epoch. -/
def candleCutoff (value : Option (Option Int)) (default now : Int) : Int :=
  match windowDays value default with
  | some days => cutoff now days
  | none => toTimestamp 0

/-- The statements of `prune`, in their order. -/
def pruneStatements (minuteCut dailyCut : Int) : List (Scope × (Table → Table)) :=
  [(.device, fun t => t.pruneMinutes minuteCut), (.server, fun t => t.pruneMinutes minuteCut),
    (.device, fun t => t.pruneDaily dailyCut), (.server, fun t => t.pruneDaily dailyCut)]

inductive Event where
  | wait (elapsed : Nat)
  /-- The bars of a minute are flushed; for each id the rates it observed. -/
  | flush (scope : Scope) (minute : Int) (rates : List (Uuid × Ticks))
  /-- The aggregator takes the time. -/
  | tick
  /-- The next statement of the pass. -/
  | statement (ok : Bool)
  /-- `prune`, some time after the retention pass took the time; the first
  statement that fails ends it. -/
  | prune (minuteDays dailyDays : Option (Option Int)) (delay : Nat) (done : Nat)
  | restart
  deriving DecidableEq

/-- The rows of a flush. -/
def flushRows (minute : Int) (rates : List (Uuid × Ticks)) : List CandleRow :=
  drainBars (rates.map fun entry => (entry.1, barOf entry.2.rates))
    (toTimestamp (floorMinute minute))

def State.prune (s : State) (minuteDays dailyDays : Option (Option Int)) (delay done : Nat) :
    State :=
  ((pruneStatements (candleCutoff minuteDays candleMinuteRetentionDays (s.now - delay))
    (candleCutoff dailyDays candleDailyRetentionDays (s.now - delay))).take done).foldl
      (fun s q => s.update q.1 q.2) s

def step (s : State) : Event → State
  | .wait elapsed => { s with now := s.now + elapsed }
  | .flush scope minute rates => s.update scope fun t => t.flush (flushRows minute rates)
  | .tick => { s with pass := some (candleRollups s.now) }
  | .statement ok => s.statement ok
  | .prune minuteDays dailyDays delay done => s.prune minuteDays dailyDays delay done
  | .restart => { s with pass := none }

def emptyTable : Table := ⟨[], [], [], [], [], []⟩

/-- A first start on empty tables. -/
def start (now : Int) : State := ⟨now, none, emptyTable, emptyTable⟩

/--
The candle of every settled day and every id is the fold of all minute rows ever
flushed for it, until the window of the daily table removes it.
-/
def Table.Final (t : Table) : Prop :=
  ∀ lo ∈ t.settled, ∀ id,
    (∀ row, rowAt CandleRow.key (id, lo) t.daily = some row →
      row = dayCandle lo id (part t.flushed id lo (lo + microsPerDay))) ∧
    (rowAt CandleRow.key (id, lo) t.daily = none →
      part t.flushed id lo (lo + microsPerDay) = [] ∨ ∃ cut ∈ t.dailyCuts, lo < cut)

def State.Final (s : State) : Prop := ∀ scope, (s.table scope).Final

/-- If the day is settled, no id has lost some of its minute rows and kept others. -/
def Table.Untorn (t : Table) (lo hi : Int) : Prop :=
  lo ∈ t.settled → ∀ r ∈ t.minutes, ∀ r' ∈ t.lost,
    between lo hi r = true → between lo hi r' = true → r.id ≠ r'.id

instance (t : Table) (lo hi : Int) : Decidable (t.Untorn lo hi) :=
  inferInstanceAs (Decidable (_ → ∀ r ∈ _, ∀ r' ∈ _, _ → _ → _))

/-- The roll-up of a statement finds its day untorn, if the day fits into the daily table. -/
def Rollup.Untorn (s : State) : Rollup → Prop
  | .deviceCandles dayStart dayEnd => DayFits dayStart dayEnd s.devices.minutes →
      s.devices.Untorn (toTimestamp dayStart) (toTimestamp dayEnd)
  | .serverCandles dayStart dayEnd => DayFits dayStart dayEnd s.servers.minutes →
      s.servers.Untorn (toTimestamp dayStart) (toTimestamp dayEnd)
  | .hourly _ => True
  | .daily _ => True

/-- The condition on a run: a roll-up that goes through finds its day untorn. -/
def RerollsWhole (s : State) : Event → Prop
  | .statement true =>
      match s.pass with
      | some (q :: _) => Rollup.Untorn s q
      | _ => True
  | _ => True

section Rows

variable {rows rows' : List CandleRow} {id : Uuid} {lo hi : Int}

theorem part_append : part (rows ++ rows') id lo hi = part rows id lo hi ++ part rows' id lo hi :=
  List.filter_append ..

/-- The samples of an id in an interval. -/
def samplesIn (rows : List CandleRow) (id : Uuid) (lo hi : Int) : Int :=
  ((part rows id lo hi).map CandleRow.samples).sum

theorem samplesIn_eq_fold :
    samplesIn rows id lo hi = (Column.fold .samples (part rows id lo hi)).getD 0 :=
  (foldColumn_add CandleRow.samples (part rows id lo hi)).symm

theorem samplesIn_append :
    samplesIn (rows ++ rows') id lo hi = samplesIn rows id lo hi + samplesIn rows' id lo hi := by
  unfold samplesIn
  rw [part_append, List.map_append, List.sum_append]

theorem samplesIn_mergeRows (h : (rows.map CandleRow.key).Nodup) (new : List CandleRow) :
    samplesIn (mergeRows new rows) id lo hi = samplesIn rows id lo hi + samplesIn new id lo hi := by
  rw [samplesIn_eq_fold, samplesIn_eq_fold, samplesIn_eq_fold, fold_mergeRows h]
  cases Column.fold .samples (part rows id lo hi) with
  | none =>
      rw [Option.merge_none_left]
      exact (Int.zero_add _).symm
  | some x =>
      cases Column.fold .samples (part new id lo hi) with
      | none =>
          rw [Option.merge_none_right]
          exact (Int.add_zero _).symm
      | some y =>
          rfl

/-- A filter splits the samples. -/
theorem samplesIn_filter (rows : List CandleRow) (id : Uuid) (lo hi : Int) (p : CandleRow → Bool) :
    samplesIn (rows.filter p) id lo hi + samplesIn (rows.filter fun r => !p r) id lo hi =
      samplesIn rows id lo hi := by
  have hsum : ∀ p : CandleRow → Bool, samplesIn (rows.filter p) id lo hi =
      columnSum (fun r => during (fun r => r.id == id) CandleRow.bucketStart lo hi r && p r)
        CandleRow.samples rows := by
    intro p
    unfold samplesIn part columnSum
    rw [List.filter_filter]
  rw [hsum, hsum]
  refine (columnSum_disjoint CandleRow.samples ?_ ?_).symm
  · intro r _
    cases p r
    · simp
    · simp
  · intro r _
    cases p r
    · simp
    · simp

/-- Rows with samples sum up to something. -/
theorem samplesIn_pos (hpos : ∀ r ∈ rows, 0 < r.samples) (h : part rows id lo hi ≠ []) :
    0 < samplesIn rows id lo hi := by
  unfold samplesIn
  have hpart : ∀ r ∈ part rows id lo hi, 0 < r.samples := fun r hr => hpos r (mem_part.mp hr).1
  generalize part rows id lo hi = rs at h hpart
  induction rs with
  | nil =>
      exact absurd rfl h
  | cons r rs ih =>
      obtain ⟨hr, hrs⟩ := List.forall_mem_cons.mp hpart
      rw [List.map_cons, List.sum_cons]
      cases rs with
      | nil =>
          simpa using hr
      | cons r' rs =>
          have hrest := ih (List.cons_ne_nil r' rs) hrs
          omega

theorem samplesIn_nonneg (hpos : ∀ r ∈ rows, 0 < r.samples) : 0 ≤ samplesIn rows id lo hi := by
  by_cases h : part rows id lo hi = []
  · unfold samplesIn
    rw [h]
    exact Int.le_refl 0
  · exact Int.le_of_lt (samplesIn_pos hpos h)

theorem toI64_eq {x : Int} (h : inI64 x) : toI64 x = x :=
  Int.bmod_eq_of_le_mul_two (by have := h.1; omega) (by have := h.2; omega)

theorem toI32_eq {x : Int} (hx : 0 ≤ x) (hlt : x < 2 ^ 31) : toI32 x = x :=
  Int.bmod_eq_of_le_mul_two (by omega) (by omega)

/-- A bar counts its ticks. -/
theorem barOf_samples {rates : List (Int × Int)} (hfew : rates.length < 2 ^ 31) :
    (barOf rates).samples = rates.length := by
  have hfold : ∀ (rates : List (Int × Int)) (b : Bar), 0 ≤ b.samples →
      b.samples + rates.length < 2 ^ 31 →
        (rates.foldl (fun b rate => b.observe rate.1 rate.2) b).samples =
          b.samples + rates.length := by
    intro rates
    induction rates with
    | nil =>
        intro b _ _
        simp
    | cons rate rates ih =>
        intro b hpos hlt
        rw [List.length_cons] at hlt ⊢
        push_cast at hlt ⊢
        have hone : (b.observe rate.1 rate.2).samples = b.samples + 1 :=
          toI32_eq (by omega) (by omega)
        rw [List.foldl_cons, ih _ (by omega) (by omega), hone]
        omega
  have hsum := hfold rates Bar.empty (Int.le_refl 0) (by simp only [Bar.empty]; omega)
  unfold barOf
  rw [hsum]
  exact Int.zero_add _

theorem flushRows_samples {minute : Int} {rates : List (Uuid × Ticks)} :
    ∀ r ∈ flushRows minute rates, 0 < r.samples := by
  intro r hr
  unfold flushRows drainBars at hr
  obtain ⟨entry, hentry, rfl⟩ := List.mem_map.mp hr
  obtain ⟨hmem, htraffic⟩ := List.mem_filter.mp hentry
  obtain ⟨⟨id, rates, hfew⟩, _, rfl⟩ := List.mem_map.mp hmem
  simp only [barOf_samples hfew]
  cases rates with
  | nil =>
      have hidle : (barOf []).hasTraffic = false := by decide
      exact absurd (htraffic.symm.trans hidle) (by decide)
  | cons rate rates =>
      rw [List.length_cons]
      omega

end Rows

/-- What every run keeps of a scope. -/
structure Table.Kept (t : Table) : Prop where
  key : (t.minutes.map CandleRow.key).Nodup
  minutes : ∀ r ∈ t.minutes, 0 < r.samples
  lost : ∀ r ∈ t.lost, 0 < r.samples
  flushed : ∀ r ∈ t.flushed, 0 < r.samples
  fold : ∀ id lo hi, part t.lost id lo hi = [] → ∀ c : Column,
    c.fold (part t.minutes id lo hi) = c.fold (part t.flushed id lo hi)
  samples : ∀ id lo hi,
    samplesIn t.minutes id lo hi + samplesIn t.lost id lo hi = samplesIn t.flushed id lo hi
  candle : ∀ id lo, rowAt CandleRow.key (id, lo) t.daily ≠ none →
    part t.flushed id lo (lo + microsPerDay) ≠ []

namespace Table

variable {t : Table} {id : Uuid} {lo hi : Int}

/-- A minute row comes from a flush. -/
theorem Kept.flushed_ne_nil (h : t.Kept) (hpart : part t.minutes id lo hi ≠ []) :
    part t.flushed id lo hi ≠ [] := by
  intro hnil
  have hsum := h.samples id lo hi
  have hflushed : samplesIn t.flushed id lo hi = 0 := by
    unfold samplesIn
    rw [hnil]
    rfl
  have hminutes := samplesIn_pos h.minutes hpart
  have hlost : 0 ≤ samplesIn t.lost id lo hi := samplesIn_nonneg h.lost
  omega

/-- A flush merges its rows, or leaves the table alone. -/
theorem forall_flush {P : Table → Prop} {rows : List CandleRow} (h : P t)
    (hok : insert1m rows t.minutes = .ok (mergeRows rows t.minutes) → P (t.merged rows)) :
    P (t.flush rows) := by
  unfold Table.flush
  split
  · rename_i minutes' hinsert
    rw [(insert1m_eq_ok hinsert).1] at hinsert
    exact hok hinsert
  · exact h

/-- A roll-up of a day that fits overwrites its candles, any other leaves the table alone. -/
theorem rollup_cases (t : Table) (now dayStart dayEnd : Int) :
    (∃ daily, rollupDaily dayStart dayEnd t.minutes t.daily = .ok daily ∧
        t.rollup now dayStart dayEnd =
          t.rolled now (toTimestamp dayStart) (toTimestamp dayEnd) daily) ∨
      ¬DayFits dayStart dayEnd t.minutes ∧ t.rollup now dayStart dayEnd = t := by
  unfold Table.rollup
  by_cases hfits : DayFits dayStart dayEnd t.minutes
  · have hok : rollupDaily dayStart dayEnd t.minutes t.daily = .ok _ := if_pos hfits
    rw [hok]
    exact .inl ⟨_, rfl, rfl⟩
  · have herror : rollupDaily dayStart dayEnd t.minutes t.daily = .error _ := if_neg hfits
    rw [herror]
    exact .inr ⟨hfits, rfl⟩

theorem flush_lost (t : Table) (rows : List CandleRow) : (t.flush rows).lost = t.lost :=
  forall_flush (P := fun t' => t'.lost = t.lost) rfl fun _ => rfl

theorem rollup_lost (t : Table) (now dayStart dayEnd : Int) :
    (t.rollup now dayStart dayEnd).lost = t.lost := by
  rcases rollup_cases t now dayStart dayEnd with ⟨daily, _, heq⟩ | ⟨_, heq⟩
  · rw [heq]
    rfl
  · rw [heq]

theorem Kept.merged (h : t.Kept) {rows : List CandleRow} (hrows : ∀ r ∈ rows, 0 < r.samples) :
    (t.merged rows).Kept where
  key := nodup_mergeRows h.key rows
  minutes := samples_mergeRows hrows h.minutes
  lost := h.lost
  flushed := by
    intro r hr
    rcases List.mem_append.mp hr with hr | hr
    · exact h.flushed r hr
    · exact hrows r hr
  fold := by
    intro id lo hi hlost c
    have hold := h.fold id lo hi hlost c
    simp only [Table.merged]
    rw [fold_mergeRows h.key, hold, part_append]
    unfold Column.fold
    rw [foldColumn_append]
  samples := by
    intro id lo hi
    have hold := h.samples id lo hi
    simp only [Table.merged]
    rw [samplesIn_mergeRows h.key, samplesIn_append]
    omega
  candle := by
    intro id lo hrow
    have hold := h.candle id lo hrow
    simp only [Table.merged]
    rw [part_append]
    exact List.append_ne_nil_of_left_ne_nil hold _

theorem Kept.flush (h : t.Kept) {rows : List CandleRow} (hrows : ∀ r ∈ rows, 0 < r.samples) :
    (t.flush rows).Kept :=
  forall_flush h fun _ => h.merged hrows

theorem Kept.rolled (h : t.Kept) {now dayStart dayEnd : Int} {daily : List CandleRow}
    (hday : toTimestamp dayEnd = toTimestamp dayStart + microsPerDay)
    (hok : rollupDaily dayStart dayEnd t.minutes t.daily = .ok daily) :
    (t.rolled now (toTimestamp dayStart) (toTimestamp dayEnd) daily).Kept where
  key := h.key
  minutes := h.minutes
  lost := h.lost
  flushed := h.flushed
  fold := h.fold
  samples := h.samples
  candle := by
    intro id lo hrow
    simp only [Table.rolled] at hrow ⊢
    by_cases hhit : lo = toTimestamp dayStart ∧
        part t.minutes id (toTimestamp dayStart) (toTimestamp dayEnd) ≠ []
    · obtain ⟨rfl, hpart⟩ := hhit
      rw [← hday]
      exact h.flushed_ne_nil hpart
    · rw [rowAt_rollupDaily_same hok
        (fun htime => by_contra fun hpart => hhit ⟨htime, hpart⟩)] at hrow
      exact h.candle id lo hrow

theorem Kept.rollup (h : t.Kept) {now dayStart dayEnd : Int}
    (hday : toTimestamp dayEnd = toTimestamp dayStart + microsPerDay) :
    (t.rollup now dayStart dayEnd).Kept := by
  rcases rollup_cases t now dayStart dayEnd with ⟨daily, hok, heq⟩ | ⟨_, heq⟩
  · rw [heq]
    exact h.rolled hday hok
  · rw [heq]
    exact h

theorem Kept.pruneMinutes (h : t.Kept) (cut : Int) : (t.pruneMinutes cut).Kept where
  key := h.key.sublist (List.Sublist.map _ List.filter_sublist)
  minutes := fun r hr => h.minutes r (List.mem_filter.mp hr).1
  lost := by
    intro r hr
    rcases List.mem_append.mp hr with hr | hr
    · exact h.lost r hr
    · exact h.minutes r (List.mem_filter.mp hr).1
  flushed := h.flushed
  fold := by
    intro id lo hi hlost c
    simp only [Table.pruneMinutes] at hlost ⊢
    rw [part_append, List.append_eq_nil_iff] at hlost
    have hsame : part (pruneRows cut t.minutes) id lo hi = part t.minutes id lo hi := by
      unfold part pruneRows
      rw [List.filter_filter]
      refine List.filter_congr ?_
      intro r hr
      rw [Bool.eq_iff_iff, Bool.and_eq_true, decide_eq_true_eq]
      constructor
      · intro hin
        exact hin.1
      · intro hin
        refine ⟨hin, ?_⟩
        by_contra hcut
        have hmem : r ∈ part (t.minutes.filter fun r => !decide (cut ≤ r.bucketStart)) id lo hi :=
          List.mem_filter.mpr ⟨List.mem_filter.mpr ⟨hr, by simpa using hcut⟩, hin⟩
        rw [hlost.2] at hmem
        cases hmem
    rw [hsame]
    exact h.fold id lo hi hlost.1 c
  samples := by
    intro id lo hi
    have hold := h.samples id lo hi
    have hsplit := samplesIn_filter t.minutes id lo hi fun r => decide (cut ≤ r.bucketStart)
    simp only [Table.pruneMinutes, pruneRows]
    rw [samplesIn_append]
    omega
  candle := h.candle

theorem Kept.pruneDaily (h : t.Kept) (cut : Int) : (t.pruneDaily cut).Kept where
  key := h.key
  minutes := h.minutes
  lost := h.lost
  flushed := h.flushed
  fold := h.fold
  samples := h.samples
  candle := by
    intro id lo hrow
    simp only [Table.pruneDaily] at hrow ⊢
    rw [rowAt_pruneRows] at hrow
    split at hrow
    · exact h.candle id lo hrow
    · exact absurd rfl hrow

end Table

namespace Table

variable {t : Table}

/-- A flush unsettles the days that it writes to. -/
theorem Final.flush (h : t.Final) (rows : List CandleRow) : (t.flush rows).Final := by
  refine forall_flush h fun _ => ?_
  intro lo hlo id
  obtain ⟨hlo, hnone⟩ := List.mem_filter.mp hlo
  have hrows : part rows id lo (lo + microsPerDay) = [] := by
    rw [List.eq_nil_iff_forall_not_mem]
    intro r hr
    obtain ⟨hmem, _, hin⟩ := mem_part.mp hr
    have hany : rows.any (between lo (lo + microsPerDay)) = true :=
      List.any_eq_true.mpr ⟨r, hmem, between_iff.mpr hin⟩
    rw [hany] at hnone
    cases hnone
  have hsame : part (t.flushed ++ rows) id lo (lo + microsPerDay) =
      part t.flushed id lo (lo + microsPerDay) := by
    rw [part_append, hrows, List.append_nil]
  simp only [Table.merged]
  rw [hsame]
  exact h lo hlo id

theorem Final.pruneDaily (h : t.Final) (cut : Int) : (t.pruneDaily cut).Final := by
  intro lo hlo id
  obtain ⟨hsome, hnone⟩ := h lo hlo id
  simp only [Table.pruneDaily]
  rw [rowAt_pruneRows]
  by_cases hcut : cut ≤ lo
  · rw [if_pos hcut]
    refine ⟨hsome, ?_⟩
    intro hrow
    rcases hnone hrow with hempty | ⟨cut', hmem, hlt⟩
    · exact Or.inl hempty
    · exact Or.inr ⟨cut', List.mem_cons_of_mem _ hmem, hlt⟩
  · rw [if_neg hcut]
    refine ⟨fun row hrow => (by cases hrow), ?_⟩
    intro _
    exact Or.inr ⟨cut, List.mem_cons_self, by omega⟩

/-- The candle of an id that lost nothing of the day. -/
theorem Kept.fold_eq (h : t.Kept) {id : Uuid} {lo hi : Int} (hlost : part t.lost id lo hi = []) :
    dayCandle lo id (part t.minutes id lo hi) = dayCandle lo id (part t.flushed id lo hi) :=
  dayCandle_congr (h.fold id lo hi hlost) lo id

/-- Nothing in the day was flushed when nothing is there and nothing was lost. -/
theorem Kept.flushed_eq_nil (h : t.Kept) {id : Uuid} {lo hi : Int}
    (hlost : part t.lost id lo hi = []) (hminutes : part t.minutes id lo hi = []) :
    part t.flushed id lo hi = [] := by
  by_contra hne
  have hsum := h.samples id lo hi
  have hpos := samplesIn_pos h.flushed hne
  unfold samplesIn at hsum hpos
  rw [hlost, hminutes] at hsum
  simp only [List.map_nil, List.sum_nil] at hsum
  omega

theorem part_lost_of_any {id : Uuid} {lo hi : Int} (h : t.lost.any (between lo hi) = false) :
    part t.lost id lo hi = [] := by
  rw [List.eq_nil_iff_forall_not_mem]
  intro r hr
  obtain ⟨hmem, _, hin⟩ := mem_part.mp hr
  have hany : t.lost.any (between lo hi) = true :=
    List.any_eq_true.mpr ⟨r, hmem, between_iff.mpr hin⟩
  rw [hany] at h
  cases h

/-- A roll-up of an untorn day. -/
theorem Final.rolled (h : t.Final) (hk : t.Kept) {now dayStart dayEnd : Int}
    {daily : List CandleRow} (hday : toTimestamp dayEnd = toTimestamp dayStart + microsPerDay)
    (hok : rollupDaily dayStart dayEnd t.minutes t.daily = .ok daily)
    (huntorn : t.Untorn (toTimestamp dayStart) (toTimestamp dayEnd)) :
    (t.rolled now (toTimestamp dayStart) (toTimestamp dayEnd) daily).Final := by
  intro lo hlo id
  simp only [Table.rolled] at hlo ⊢
  by_cases hstart : lo = toTimestamp dayStart
  · subst hstart
    rw [← hday]
    by_cases hminutes : part t.minutes id (toTimestamp dayStart) (toTimestamp dayEnd) = []
    · rw [rowAt_rollupDaily_same hok fun _ => hminutes]
      split at hlo
      · -- the day is over and complete, so the id has nothing in it
        rename_i hcomplete
        have hflushed := hk.flushed_eq_nil (part_lost_of_any hcomplete.2) hminutes
        have hnone : rowAt CandleRow.key (id, toTimestamp dayStart) t.daily = none := by
          by_contra hrow
          have hne := hk.candle id _ hrow
          rw [← hday] at hne
          exact hne hflushed
        rw [hnone]
        exact ⟨fun row hrow => (by cases hrow), fun _ => Or.inl hflushed⟩
      · have hold := h _ hlo id
        rw [← hday] at hold
        exact hold
    · rw [rowAt_rollupDaily hok hminutes]
      refine ⟨?_, fun hrow => (by cases hrow)⟩
      intro row hrow
      cases hrow
      refine hk.fold_eq ?_
      split at hlo
      · rename_i hcomplete
        exact part_lost_of_any hcomplete.2
      · -- settled before: the id still has minute rows, so it lost none
        obtain ⟨r, hr⟩ := List.exists_mem_of_ne_nil _ hminutes
        obtain ⟨hmem, hid, hin⟩ := mem_part.mp hr
        rw [List.eq_nil_iff_forall_not_mem]
        intro r' hr'
        obtain ⟨hmem', hid', hin'⟩ := mem_part.mp hr'
        exact huntorn hlo r hmem r' hmem' (between_iff.mpr hin) (between_iff.mpr hin')
          (hid.trans hid'.symm)
  · have hold : lo ∈ t.settled := by
      split at hlo
      · rcases List.mem_cons.mp hlo with heq | hmem
        · exact absurd heq hstart
        · exact hmem
      · exact hlo
    rw [rowAt_rollupDaily_same hok fun heq => absurd heq hstart]
    exact h lo hold id

/-- A roll-up of a torn day shrinks its candle. -/
theorem untorn_of_rolled (hk : t.Kept) {now dayStart dayEnd : Int} {daily : List CandleRow}
    (hday : toTimestamp dayEnd = toTimestamp dayStart + microsPerDay)
    (hok : rollupDaily dayStart dayEnd t.minutes t.daily = .ok daily)
    (h : (t.rolled now (toTimestamp dayStart) (toTimestamp dayEnd) daily).Final) :
    t.Untorn (toTimestamp dayStart) (toTimestamp dayEnd) := by
  intro hsettled r hr r' hr' hin hin' hid
  have hminutes : r ∈ part t.minutes r.id (toTimestamp dayStart) (toTimestamp dayEnd) :=
    mem_part.mpr ⟨hr, rfl, between_iff.mp hin⟩
  have hlost : r' ∈ part t.lost r.id (toTimestamp dayStart) (toTimestamp dayEnd) :=
    mem_part.mpr ⟨hr', hid.symm, between_iff.mp hin'⟩
  have hsettled' : toTimestamp dayStart ∈
      (t.rolled now (toTimestamp dayStart) (toTimestamp dayEnd) daily).settled := by
    simp only [Table.rolled]
    split
    · exact List.mem_cons_of_mem _ hsettled
    · exact hsettled
  have hrow := (h _ hsettled' r.id).1 _ (rowAt_rollupDaily hok (List.ne_nil_of_mem hminutes))
  rw [← hday] at hrow
  -- both candles count samples, but the lost row has some of its own
  have hcount : samplesIn t.minutes r.id (toTimestamp dayStart) (toTimestamp dayEnd) =
      samplesIn t.flushed r.id (toTimestamp dayStart) (toTimestamp dayEnd) := by
    rw [samplesIn_eq_fold, samplesIn_eq_fold]
    exact congrArg CandleRow.samples hrow
  have hsum := hk.samples r.id (toTimestamp dayStart) (toTimestamp dayEnd)
  have hpos := samplesIn_pos hk.lost (List.ne_nil_of_mem hlost)
  omega

/-- A roll-up keeps the candles final exactly if it fails or finds its day untorn. -/
theorem final_rollup_iff (now : Int) (h : t.Final) (hk : t.Kept) {dayStart dayEnd : Int}
    (hday : toTimestamp dayEnd = toTimestamp dayStart + microsPerDay) :
    (t.rollup now dayStart dayEnd).Final ↔ (DayFits dayStart dayEnd t.minutes →
      t.Untorn (toTimestamp dayStart) (toTimestamp dayEnd)) := by
  rcases rollup_cases t now dayStart dayEnd with ⟨daily, hok, heq⟩ | ⟨hout, heq⟩
  · rw [heq]
    constructor
    · exact fun hfinal _ => untorn_of_rolled hk hday hok hfinal
    · exact fun huntorn => h.rolled hk hday hok (huntorn (rollupDaily_eq_ok hok).1)
  · rw [heq]
    exact ⟨fun _ hfits => absurd hfits hout, fun _ => h⟩

end Table

/-- The statement is about one whole day. -/
def Rollup.OneDay : Rollup → Prop
  | .deviceCandles dayStart dayEnd => toTimestamp dayEnd = toTimestamp dayStart + microsPerDay
  | .serverCandles dayStart dayEnd => toTimestamp dayEnd = toTimestamp dayStart + microsPerDay
  | .hourly _ => True
  | .daily _ => True

theorem oneDay_candleRollups (now : Int) : ∀ q ∈ candleRollups now, Rollup.OneDay q := by
  have hcur := toTimestamp_nextDay (now / nanosPerDay)
  have hprev := toTimestamp_nextDay (now / nanosPerDay - 1)
  rw [← toTimestamp_days] at hcur hprev
  rw [Int.sub_mul, Int.one_mul, Int.sub_add_cancel] at hprev
  intro q hq
  simp only [candleRollups, truncateToDay, List.mem_cons, List.not_mem_nil, or_false] at hq
  rcases hq with rfl | rfl | rfl | rfl
  · exact hcur
  · exact hcur
  · exact hprev
  · exact hprev

section Runs

variable {s : State}

theorem table_update (s : State) (scope scope' : Scope) (f : Table → Table) :
    (s.update scope f).table scope' =
      if scope' = scope then f (s.table scope') else s.table scope' := by
  cases scope <;> cases scope' <;> rfl

/-- The tables do not depend on the clock and the pass. -/
theorem table_congr {s s' : State} (hdevices : s'.devices = s.devices)
    (hservers : s'.servers = s.servers) (scope : Scope) : s'.table scope = s.table scope := by
  cases scope
  · exact hdevices
  · exact hservers

/-- What an update keeps in its own table it keeps in both. -/
theorem forall_update {P : Table → Prop} (h : ∀ scope, P (s.table scope)) {scope : Scope}
    {f : Table → Table} (hf : P (f (s.table scope))) :
    ∀ scope', P ((s.update scope f).table scope') := by
  intro scope'
  rw [table_update]
  split
  · rename_i heq
    rw [heq]
    exact hf
  · exact h scope'

theorem forall_updates {P : Table → Prop} (qs : List (Scope × (Table → Table)))
    (hqs : ∀ q ∈ qs, ∀ t, P t → P (q.2 t)) {s : State} (h : ∀ scope, P (s.table scope)) :
    ∀ scope, P ((qs.foldl (fun s q => s.update q.1 q.2) s).table scope) := by
  induction qs generalizing s with
  | nil =>
      exact h
  | cons q qs ih =>
      refine ih (fun q' hq' => hqs q' (List.mem_cons_of_mem _ hq')) ?_
      exact forall_update h (hqs q List.mem_cons_self _ (h q.1))

theorem update_pass (s : State) (scope : Scope) (f : Table → Table) :
    (s.update scope f).pass = s.pass := by
  cases scope
  · rfl
  · rfl

theorem updates_pass (qs : List (Scope × (Table → Table))) (s : State) :
    (qs.foldl (fun s q => s.update q.1 q.2) s).pass = s.pass := by
  induction qs generalizing s with
  | nil =>
      rfl
  | cons q qs ih =>
      rw [List.foldl_cons, ih, update_pass]

/-- What every run keeps. -/
structure State.Kept (s : State) : Prop where
  table : ∀ scope, (s.table scope).Kept
  pass : ∀ rest, s.pass = some rest → ∀ q ∈ rest, Rollup.OneDay q

theorem State.Kept.rollup (h : s.Kept) {q : Rollup} (hq : Rollup.OneDay q) :
    ∀ scope, ((s.rollup q).table scope).Kept := by
  cases q with
  | hourly start =>
      exact h.table
  | daily start =>
      exact h.table
  | deviceCandles dayStart dayEnd =>
      exact forall_update h.table ((h.table .device).rollup hq)
  | serverCandles dayStart dayEnd =>
      exact forall_update h.table ((h.table .server).rollup hq)

theorem prune_statements {P : Table → Prop} (hminutes : ∀ t cut, P t → P (t.pruneMinutes cut))
    (hdaily : ∀ t cut, P t → P (t.pruneDaily cut)) (minuteCut dailyCut : Int) (done : Nat) :
    ∀ q ∈ (pruneStatements minuteCut dailyCut).take done, ∀ t, P t → P (q.2 t) := by
  intro q hq
  have hmem := List.mem_of_mem_take hq
  simp only [pruneStatements, List.mem_cons, List.not_mem_nil, or_false] at hmem
  rcases hmem with rfl | rfl | rfl | rfl
  · exact fun t => hminutes t minuteCut
  · exact fun t => hminutes t minuteCut
  · exact fun t => hdaily t dailyCut
  · exact fun t => hdaily t dailyCut

theorem kept_step (s : State) (e : Event) (h : s.Kept) : (step s e).Kept := by
  cases e with
  | wait elapsed =>
      refine ⟨?_, h.pass⟩
      intro scope
      rw [table_congr rfl rfl scope]
      exact h.table scope
  | flush scope minute rates =>
      refine ⟨forall_update h.table ((h.table scope).flush flushRows_samples), ?_⟩
      intro rest hrest
      rw [show (step s (.flush scope minute rates)).pass = s.pass from update_pass ..] at hrest
      exact h.pass rest hrest
  | tick =>
      refine ⟨?_, ?_⟩
      · intro scope
        rw [table_congr rfl rfl scope]
        exact h.table scope
      · intro rest hrest
        cases hrest
        exact oneDay_candleRollups s.now
  | statement ok =>
      simp only [step, State.statement]
      split
      · rename_i q rest hpass
        have hall := h.pass _ hpass
        refine ⟨?_, ?_⟩
        · have htables : ∀ scope, ((if ok then s.rollup q else s).table scope).Kept := by
            split
            · exact h.rollup (hall q List.mem_cons_self)
            · exact h.table
          intro scope
          cases scope
          · exact htables .device
          · exact htables .server
        · intro rest' hrest'
          simp only at hrest'
          split at hrest'
          · cases hrest'
          · cases hrest'
            exact fun q' hq' => hall q' (List.mem_cons_of_mem _ hq')
      · exact h
  | prune minuteDays dailyDays delay done =>
      refine ⟨forall_updates _ (prune_statements (fun _ cut ht => ht.pruneMinutes cut)
        (fun _ cut ht => ht.pruneDaily cut) _ _ done) h.table, ?_⟩
      intro rest hrest
      rw [show (step s (.prune minuteDays dailyDays delay done)).pass = s.pass from
        updates_pass ..] at hrest
      exact h.pass rest hrest
  | restart =>
      refine ⟨?_, fun rest hrest => (by cases hrest)⟩
      intro scope
      rw [table_congr rfl rfl scope]
      exact h.table scope

/-- A statement that reaches the server keeps the candles final exactly if it finds its day untorn
or fails. -/
theorem final_rollup_iff (hk : s.Kept) (h : s.Final) {q : Rollup} (hq : Rollup.OneDay q) :
    (s.rollup q).Final ↔ Rollup.Untorn s q := by
  cases q with
  | hourly start =>
      exact ⟨fun _ => trivial, fun _ => h⟩
  | daily start =>
      exact ⟨fun _ => trivial, fun _ => h⟩
  | deviceCandles dayStart dayEnd =>
      have hiff := Table.final_rollup_iff s.now (h .device) (hk.table .device) hq
      exact ⟨fun hfinal => hiff.mp (hfinal .device),
        fun huntorn => forall_update h (hiff.mpr huntorn)⟩
  | serverCandles dayStart dayEnd =>
      have hiff := Table.final_rollup_iff s.now (h .server) (hk.table .server) hq
      exact ⟨fun hfinal => hiff.mp (hfinal .server),
        fun huntorn => forall_update h (hiff.mpr huntorn)⟩

theorem final_congr {s s' : State} (hdevices : s'.devices = s.devices)
    (hservers : s'.servers = s.servers) : s'.Final ↔ s.Final := by
  unfold State.Final
  simp only [table_congr hdevices hservers]

theorem final_step (s : State) (e : Event) (hk : s.Kept) (h : s.Final) :
    (step s e).Final ↔ RerollsWhole s e := by
  cases e with
  | wait elapsed =>
      exact ⟨fun _ => trivial, fun _ => (final_congr rfl rfl).mpr h⟩
  | flush scope minute rates =>
      exact ⟨fun _ => trivial, fun _ => forall_update h ((h scope).flush _)⟩
  | tick =>
      exact ⟨fun _ => trivial, fun _ => (final_congr rfl rfl).mpr h⟩
  | statement ok =>
      cases hpass : s.pass with
      | none =>
          have hidle : step s (.statement ok) = s := by
            simp only [step, State.statement, hpass]
          rw [hidle]
          refine ⟨fun _ => ?_, fun _ => h⟩
          cases ok
          · trivial
          · simp only [RerollsWhole, hpass]
      | some remaining =>
          cases remaining with
          | nil =>
              have hidle : step s (.statement ok) = s := by
                simp only [step, State.statement, hpass]
              rw [hidle]
              refine ⟨fun _ => ?_, fun _ => h⟩
              cases ok
              · trivial
              · simp only [RerollsWhole, hpass]
          | cons q rest =>
              have hq := hk.pass _ hpass q List.mem_cons_self
              simp only [step, State.statement, hpass]
              cases ok with
              | false =>
                  exact ⟨fun _ => trivial, fun _ => (final_congr rfl rfl).mpr h⟩
              | true =>
                  simp only [RerollsWhole, hpass, ← final_rollup_iff hk h hq]
                  exact final_congr rfl rfl
  | prune minuteDays dailyDays delay done =>
      refine ⟨fun _ => trivial, fun _ => ?_⟩
      exact forall_updates (P := Table.Final) _ (prune_statements (fun _ _ ht => ht)
        (fun _ cut ht => ht.pruneDaily cut) _ _ done) h
  | restart =>
      exact ⟨fun _ => trivial, fun _ => (final_congr rfl rfl).mpr h⟩

end Runs

theorem kept_emptyTable : emptyTable.Kept where
  key := List.nodup_nil
  minutes := fun r hr => (by cases hr)
  lost := fun r hr => (by cases hr)
  flushed := fun r hr => (by cases hr)
  fold := fun _ _ _ _ _ => rfl
  samples := fun _ _ _ => rfl
  candle := fun _ _ hrow => absurd rfl hrow

theorem kept_start (now : Int) : (start now).Kept where
  table := fun scope => (by cases scope <;> exact kept_emptyTable)
  pass := fun rest hrest => (by cases hrest)

theorem final_start (now : Int) : (start now).Final := by
  intro scope lo hlo
  cases scope
  · cases hlo
  · cases hlo

/--
The candles of the settled days stay the fold of everything flushed for them in
exactly the runs whose roll-ups never find a settled day torn.
-/
theorem daily_candles_final (now : Int) (es : List Event) :
    Always step State.Final (start now) es ↔ Along step RerollsWhole (start now) es :=
  always_iff_along (fun s e hk _ => kept_step s e hk) final_step (kept_start now)
    (final_start now)

section TwoDays

variable {s : State}

/-- The day a candle statement starts at. -/
def Rollup.dayStart : Rollup → Int
  | .deviceCandles dayStart _ => dayStart
  | .serverCandles dayStart _ => dayStart
  | .hourly start => start
  | .daily start => start

/-- Minute rows are kept for two days, and no pass falls behind by a day. -/
def TwoDays (s : State) : Event → Prop
  | .prune minuteDays _ _ _ =>
      ∀ days, windowDays minuteDays candleMinuteRetentionDays = some days → 2 ≤ days
  | .statement true =>
      ∀ q rest, s.pass = some (q :: rest) → truncateToDay s.now - nanosPerDay ≤ Rollup.dayStart q
  | _ => True

/-- The lost rows are older than the days that a pass may roll up. -/
structure LostOld (s : State) : Prop where
  now : nanosPerDay ≤ s.now
  lost : ∀ scope, ∀ r ∈ (s.table scope).lost,
    r.bucketStart < toTimestamp (truncateToDay s.now - nanosPerDay)

theorem LostOld.congr {s s' : State} (h : LostOld s) (hnow : s'.now = s.now)
    (hdevices : s'.devices.lost = s.devices.lost) (hservers : s'.servers.lost = s.servers.lost) :
    LostOld s' := by
  refine ⟨hnow ▸ h.now, ?_⟩
  intro scope r hr
  rw [hnow]
  cases scope
  · exact h.lost .device r (hdevices ▸ hr)
  · exact h.lost .server r (hservers ▸ hr)

theorem candleCutoff_le {value : Option (Option Int)} {default now : Int} {delay : Nat}
    (hnow : nanosPerDay ≤ now) (hdays : ∀ days, windowDays value default = some days → 2 ≤ days) :
    candleCutoff value default (now - delay) ≤ toTimestamp (truncateToDay now - nanosPerDay) := by
  unfold candleCutoff
  split
  · rename_i days hwindow
    have htwo := hdays days hwindow
    refine toTimestamp_mono ?_
    unfold truncateToDay nanosPerDay
    omega
  · refine toTimestamp_mono ?_
    unfold truncateToDay nanosPerDay at *
    omega

theorem pruneMinutes_lost {t : Table} {cut bound : Int} (hcut : cut ≤ bound)
    (h : ∀ r ∈ t.lost, r.bucketStart < bound) :
    ∀ r ∈ (t.pruneMinutes cut).lost, r.bucketStart < bound := by
  intro r hr
  rcases List.mem_append.mp hr with hr | hr
  · exact h r hr
  · have hold := (List.mem_filter.mp hr).2
    simp only [Bool.not_eq_true', decide_eq_false_iff_not] at hold
    omega

theorem updates_now (qs : List (Scope × (Table → Table))) (s : State) :
    (qs.foldl (fun s q => s.update q.1 q.2) s).now = s.now := by
  induction qs generalizing s with
  | nil =>
      rfl
  | cons q qs ih =>
      rw [List.foldl_cons, ih]
      cases q.1
      · rfl
      · rfl

theorem lostOld_step (s : State) (e : Event) (h : LostOld s) (htwo : TwoDays s e) :
    LostOld (step s e) := by
  cases e with
  | wait elapsed =>
      have hnow := h.now
      refine ⟨?_, ?_⟩
      · change nanosPerDay ≤ s.now + elapsed
        omega
      · intro scope r hr
        rw [table_congr rfl rfl scope] at hr
        refine Int.lt_of_lt_of_le (h.lost scope r hr) (toTimestamp_mono ?_)
        change truncateToDay s.now - nanosPerDay ≤ truncateToDay (s.now + elapsed) - nanosPerDay
        unfold truncateToDay nanosPerDay
        omega
  | flush scope minute rates =>
      cases scope
      · exact h.congr rfl (Table.flush_lost ..) rfl
      · exact h.congr rfl rfl (Table.flush_lost ..)
  | tick =>
      exact h.congr rfl rfl rfl
  | statement ok =>
      simp only [step, State.statement]
      split
      · rename_i q rest _
        cases ok
        · exact ⟨h.now, fun scope => (by cases scope; exacts [h.lost .device, h.lost .server])⟩
        · cases q with
          | hourly start =>
              exact h.congr rfl rfl rfl
          | daily start =>
              exact h.congr rfl rfl rfl
          | deviceCandles dayStart dayEnd =>
              exact h.congr rfl (Table.rollup_lost ..) rfl
          | serverCandles dayStart dayEnd =>
              exact h.congr rfl rfl (Table.rollup_lost ..)
      · exact h
  | prune minuteDays dailyDays delay done =>
      have hcut : candleCutoff minuteDays candleMinuteRetentionDays (s.now - delay) ≤
          toTimestamp (truncateToDay s.now - nanosPerDay) := candleCutoff_le h.now htwo
      have hsame : (step s (.prune minuteDays dailyDays delay done)).now = s.now := updates_now ..
      refine ⟨?_, ?_⟩
      · rw [hsame]
        exact h.now
      · rw [hsame]
        refine forall_updates (P := fun t => ∀ r ∈ t.lost,
          r.bucketStart < toTimestamp (truncateToDay s.now - nanosPerDay)) _ ?_ h.lost
        intro q hq t ht
        have hmem := List.mem_of_mem_take hq
        simp only [pruneStatements, List.mem_cons, List.not_mem_nil, or_false] at hmem
        rcases hmem with rfl | rfl | rfl | rfl
        · exact pruneMinutes_lost hcut ht
        · exact pruneMinutes_lost hcut ht
        · exact ht
        · exact ht
  | restart =>
      exact h.congr rfl rfl rfl

theorem rerollsWhole_of_lostOld (s : State) (e : Event) (h : LostOld s) (htwo : TwoDays s e) :
    RerollsWhole s e := by
  -- a lost row would have to be older than the day that is rolled up
  have huntorn : ∀ (scope : Scope) (lo hi : Int), truncateToDay s.now - nanosPerDay ≤ lo →
      (s.table scope).Untorn (toTimestamp lo) hi := by
    intro scope lo hi hlo _ r _ r' hr' _ hin'
    have hlost := h.lost scope r' hr'
    have hmono := toTimestamp_mono hlo
    have hbetween := (between_iff.mp hin').1
    omega
  cases e with
  | statement ok =>
      cases ok with
      | false =>
          trivial
      | true =>
          simp only [RerollsWhole]
          split
          · rename_i q rest hpass
            have hstart := htwo q rest hpass
            cases q with
            | hourly start =>
                trivial
            | daily start =>
                trivial
            | deviceCandles dayStart dayEnd =>
                exact fun _ => huntorn .device dayStart _ hstart
            | serverCandles dayStart dayEnd =>
                exact fun _ => huntorn .server dayStart _ hstart
          · trivial
  | _ =>
      trivial

/-- With minute windows of two days or more no roll-up finds its day torn. -/
theorem rerollsWhole_of_two_days {now : Int} (hnow : nanosPerDay ≤ now) {es : List Event}
    (h : Along step TwoDays (start now) es) : Along step RerollsWhole (start now) es := by
  refine along_of_inv LostOld lostOld_step rerollsWhole_of_lostOld ⟨hnow, ?_⟩ h
  intro scope r hr
  cases scope
  · cases hr
  · cases hr

end TwoDays

section Sample

/-- Two active minutes of 2026-06-01, a pass after midnight, and with a window of
one day a prune at noon and another pass. -/
def sampleRun : List Event :=
  [.flush .device (1780272060 * 1000000000) [(20, ⟨[(8, 8), (16, 8)], by decide⟩)],
    .wait (82800 * 1000000000),
    .flush .device (1780354860 * 1000000000) [(20, ⟨[(4, 4)], by decide⟩)],
    .wait (3600 * 1000000000),
    .tick, .statement true, .statement true, .statement true, .statement true,
    .wait (43200 * 1000000000),
    .prune (some (some 1)) none 0 4,
    .tick, .statement true, .statement true, .statement true, .statement true]

/-- The finished day shrinks to what its afternoon had. -/
theorem one_day_window_shrinks_a_day :
    ¬ Always step State.Final (start (1780272060 * 1000000000)) sampleRun := by
  intro h
  have hlast := h.last .device (20605 * microsPerDay) (by decide) 20
  have hrow : rowAt CandleRow.key (20, 20605 * microsPerDay)
      (runEvents step (start (1780272060 * 1000000000)) sampleRun).devices.daily =
      some ⟨20, 20605 * microsPerDay, 4, 4, 4, 4, 4, 4, 1⟩ := by
    decide
  exact absurd (hlast.1 _ hrow) (by decide)

end Sample

end CandleHistory
end Worker
end ZeroVpn
