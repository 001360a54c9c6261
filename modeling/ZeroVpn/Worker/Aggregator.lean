import ZeroVpn.Db.Bandwidth

/-!
# The aggregator's statements and the retention windows

`run_once` of `crates/zerovpn-worker/src/aggregator.rs` takes the time once and
then sends eight statements one after the other, going on after a failed one:
the current and the previous hour, the current and the previous day, and the
candles of these two days.

`window_days` of `crates/zerovpn-worker/src/retention.rs` turns a setting into a
number of days, and the retention pass deletes what is older than that.
-/

namespace ZeroVpn

open Db Db.Bandwidth

namespace Worker

/-- A statement of `run_once`; the bounds are instants. -/
inductive Rollup where
  | hourly (start : Int)
  | daily (start : Int)
  | deviceCandles (dayStart dayEnd : Int)
  | serverCandles (dayStart dayEnd : Int)
  deriving DecidableEq, Repr

/-- `truncate_to_hour`. -/
def truncateToHour (t : Int) : Int := t / nanosPerHour * nanosPerHour

/-- `truncate_to_day`. -/
def truncateToDay (t : Int) : Int := t / nanosPerDay * nanosPerDay

/-- The byte statements of `run_once`. -/
def byteRollups (now : Int) : List Rollup :=
  let curHour := truncateToHour now
  let prevHour := curHour - nanosPerHour
  let curDay := truncateToDay now
  let prevDay := curDay - nanosPerDay
  [.hourly curHour, .hourly prevHour, .daily curDay, .daily prevDay]

/-- The candle statements of `run_once`. -/
def candleRollups (now : Int) : List Rollup :=
  let curDay := truncateToDay now
  let prevDay := curDay - nanosPerDay
  [.deviceCandles curDay (curDay + nanosPerDay), .serverCandles curDay (curDay + nanosPerDay),
    .deviceCandles prevDay curDay, .serverCandles prevDay curDay]

/-- `run_once` of the aggregator. -/
def aggregatorRunOnce (now : Int) : List Rollup := byteRollups now ++ candleRollups now

/-- `window_days`; the value is the text of the variable read as an `i64`, when
the variable is set and when the text is a number. -/
def windowDays (value : Option (Option Int)) (default : Int) : Option Int :=
  match value with
  | some (some n) => if n = 0 then none else if 0 < n then some n else some default
  | some none => some default
  | none => some default

def sampleRetentionDays : Int := 30

def candleMinuteRetentionDays : Int := 30

def candleDailyRetentionDays : Int := 730

/-- The instant that a window of `days` reaches back to, as a parameter. -/
def cutoff (now days : Int) : Int := toTimestamp (now - days * nanosPerDay)

/-- A setting that purges at all keeps at least one day. -/
theorem windowDays_pos {value : Option (Option Int)} {default days : Int} (hdefault : 1 ≤ default)
    (h : windowDays value default = some days) : 1 ≤ days := by
  unfold windowDays at h
  split at h
  · split at h
    · cases h
    · split at h
      · cases h
        omega
      · cases h
        exact hdefault
  · cases h
    exact hdefault
  · cases h
    exact hdefault

/-- A parameter is at most a microsecond above its instant. -/
theorem toTimestamp_le (t : Int) : toTimestamp t ≤ t / 1000 + 1 := by
  unfold toTimestamp
  have hsign : Int.sign 1000 = 1 := rfl
  rw [Int.tdiv_eq_ediv, hsign]
  split
  · omega
  · omega

/-- The newest instant that a purge at `now` may reach. -/
def horizon (now : Int) : Int := now / 1000 - microsPerDay + 1

theorem cutoff_le_horizon {now days : Int} (hdays : 1 ≤ days) : cutoff now days ≤ horizon now := by
  unfold cutoff horizon
  have hmono : toTimestamp (now - days * nanosPerDay) ≤ toTimestamp (now - nanosPerDay) := by
    refine toTimestamp_mono ?_
    unfold nanosPerDay
    omega
  have hle := toTimestamp_le (now - nanosPerDay)
  unfold nanosPerDay at *
  unfold microsPerDay microsPerHour
  omega

theorem horizon_mono {now now' : Int} (h : now ≤ now') : horizon now ≤ horizon now' := by
  unfold horizon
  omega

/-- Every hourly statement starts at an hour, every daily one at a day. -/
theorem mem_byteRollups {now : Int} {q : Rollup} (h : q ∈ byteRollups now) :
    (∃ n, q = .hourly (n * nanosPerHour)) ∨ ∃ n, q = .daily (n * nanosPerDay) := by
  simp only [byteRollups, truncateToHour, truncateToDay, List.mem_cons, List.not_mem_nil,
    or_false] at h
  rcases h with rfl | rfl | rfl | rfl
  · exact Or.inl ⟨_, rfl⟩
  · exact Or.inl ⟨now / nanosPerHour - 1, by rw [Int.sub_mul, Int.one_mul]⟩
  · exact Or.inr ⟨_, rfl⟩
  · exact Or.inr ⟨now / nanosPerDay - 1, by rw [Int.sub_mul, Int.one_mul]⟩

end Worker
end ZeroVpn
