import ZeroVpn.Db.Calendar
import ZeroVpn.Library.Rollups

/-!
# Hourly and daily bandwidth aggregates

`rollup_hourly` and `rollup_daily` of `crates/zerovpn-db/src/repos/bandwidth.rs`:
the samples of an hour are summed into its hour row, the hour rows of a day into
its day row.  Both overwrite the row of a device that has something to sum and
leave the other rows alone.

`rowAt_rollupHourly` and `rowAt_rollupDaily` say what a row is afterwards,
`bytes_hourRow` and `bytes_dayRow` what it holds.
-/

namespace ZeroVpn

open Library

namespace Db

/-- The two byte columns of samples and aggregates. -/
inductive Direction where
  | rx
  | tx
  deriving DecidableEq, Repr

def Sample.bytes : Direction → Sample → Int
  | .rx, s => s.rxBytes
  | .tx, s => s.txBytes

namespace Bandwidth

inductive BucketKind where
  | hour
  | day
  | month
  deriving DecidableEq, Repr

/-- A row of `bandwidth_aggregates`. -/
structure Aggregate where
  deviceId : Uuid
  bucket : BucketKind
  bucketStart : Int
  rxBytes : Int
  txBytes : Int
  sampleCount : Int
  deriving DecidableEq, Repr

/-- The primary key. -/
def Aggregate.key (r : Aggregate) : Uuid × BucketKind × Int :=
  (r.deviceId, r.bucket, r.bucketStart)

def Aggregate.bytes : Direction → Aggregate → Int
  | .rx, r => r.rxBytes
  | .tx, r => r.txBytes

def nanosPerHour : Int := 3600 * 1000000000

def microsPerHour : Int := 3600 * 1000000

def microsPerDay : Int := 24 * microsPerHour

/-- The row of one device for an hour. -/
def hourRow (start : Int) (device : Uuid) (samples : List Sample) : Aggregate where
  deviceId := device
  bucket := .hour
  bucketStart := start
  rxBytes := (samples.map Sample.rxBytes).sum
  txBytes := (samples.map Sample.txBytes).sum
  sampleCount := samples.length

/-- The samples that `rollup_hourly` joins with their devices. -/
def joinedSamples (db : Db) (lo hi : Int) : List Sample :=
  db.samples.filter
    (during (fun s => db.devices.any fun d => d.id == s.deviceId) Sample.sampledAt lo hi)

/-- `rollup_hourly`. -/
def rollupHourly (db : Db) (hourStart : Int) (aggregates : List Aggregate) : List Aggregate :=
  let hourEnd := hourStart + nanosPerHour
  overwrite Aggregate.key
    (groupRows Sample.deviceId (hourRow (toTimestamp hourStart))
      (joinedSamples db (toTimestamp hourStart) (toTimestamp hourEnd)))
    aggregates

/-- The row of one device for a day. -/
def dayRow (start : Int) (device : Uuid) (hours : List Aggregate) : Aggregate where
  deviceId := device
  bucket := .day
  bucketStart := start
  rxBytes := (hours.map Aggregate.rxBytes).sum
  txBytes := (hours.map Aggregate.txBytes).sum
  sampleCount := (hours.map Aggregate.sampleCount).sum

/-- The hour rows that `rollup_daily` reads. -/
def hourRows (lo hi : Int) (aggregates : List Aggregate) : List Aggregate :=
  aggregates.filter (during (fun r => r.bucket == .hour) Aggregate.bucketStart lo hi)

/-- `rollup_daily`. -/
def rollupDaily (dayStart : Int) (aggregates : List Aggregate) : List Aggregate :=
  let dayEnd := dayStart + nanosPerDay
  overwrite Aggregate.key
    (groupRows Aggregate.deviceId (dayRow (toTimestamp dayStart))
      (hourRows (toTimestamp dayStart) (toTimestamp dayEnd) aggregates))
    aggregates

/-- The bytes of the row under a key, none without a row. -/
def bytesAt (aggregates : List Aggregate) (dir : Direction) (device : Uuid) (bucket : BucketKind)
    (start : Int) : Int :=
  ((rowAt Aggregate.key (device, bucket, start) aggregates).map (Aggregate.bytes dir)).getD 0

/-- The bytes of a device in samples of `[lo, hi)`. -/
def sampledBytes (samples : List Sample) (dir : Direction) (device : Uuid) (lo hi : Int) : Int :=
  columnSum (during (fun s => s.deviceId == device) Sample.sampledAt lo hi) (Sample.bytes dir)
    samples

theorem toTimestamp_hours (n : Int) : toTimestamp (n * nanosPerHour) = n * microsPerHour := by
  have h : n * nanosPerHour = ofTimestamp (n * microsPerHour) := by
    unfold nanosPerHour microsPerHour ofTimestamp
    omega
  rw [h, toTimestamp_ofTimestamp]

theorem toTimestamp_nextHour (n : Int) :
    toTimestamp (n * nanosPerHour + nanosPerHour) = n * microsPerHour + microsPerHour := by
  have h : n * nanosPerHour + nanosPerHour = (n + 1) * nanosPerHour := by ring
  rw [h, toTimestamp_hours]
  ring

theorem toTimestamp_days (n : Int) : toTimestamp (n * nanosPerDay) = n * microsPerDay := by
  have h : n * nanosPerDay = ofTimestamp (n * microsPerDay) := by
    unfold nanosPerDay microsPerDay microsPerHour ofTimestamp
    omega
  rw [h, toTimestamp_ofTimestamp]

theorem toTimestamp_nextDay (n : Int) :
    toTimestamp (n * nanosPerDay + nanosPerDay) = n * microsPerDay + microsPerDay := by
  have h : n * nanosPerDay + nanosPerDay = (n + 1) * nanosPerDay := by ring
  rw [h, toTimestamp_days]
  ring

section Hourly

variable {db : Db} {start : Int}

theorem hourRow_injective (start : Int) :
    Function.Injective fun d : Uuid => (d, BucketKind.hour, start) := by
  intro d d' h
  exact congrArg Prod.fst h

theorem key_hourRow (start : Int) (device : Uuid) (samples : List Sample) :
    (hourRow start device samples).key = (device, .hour, start) := rfl

theorem mem_joinedSamples {lo hi : Int} {s : Sample} :
    s ∈ joinedSamples db lo hi ↔
      s ∈ db.samples ∧ (∃ d ∈ db.devices, d.id = s.deviceId) ∧ lo ≤ s.sampledAt ∧
        s.sampledAt < hi := by
  unfold joinedSamples
  rw [List.mem_filter, during_iff]
  simp

/-- The bytes of a summed hour are those of its samples. -/
theorem bytes_hourRow (hknown : ∀ s ∈ db.samples, ∃ d ∈ db.devices, d.id = s.deviceId)
    (dir : Direction) (device : Uuid) (lo hi : Int) :
    (hourRow start device
      ((joinedSamples db lo hi).filter fun s => s.deviceId == device)).bytes dir =
        sampledBytes db.samples dir device lo hi := by
  have hfilter : (joinedSamples db lo hi).filter (fun s => s.deviceId == device) =
      db.samples.filter (during (fun s => s.deviceId == device) Sample.sampledAt lo hi) := by
    unfold joinedSamples
    rw [List.filter_filter]
    refine List.filter_congr ?_
    intro s hs
    have hany : (db.devices.any fun d => d.id == s.deviceId) = true := by
      obtain ⟨d, hd, hid⟩ := hknown s hs
      exact List.any_eq_true.mpr ⟨d, hd, by simpa using hid⟩
    simp only [during, hany, Bool.true_and, Bool.and_assoc]
  rw [hfilter]
  cases dir
  · rfl
  · rfl

/-- An hour row after its roll-up. -/
theorem rowAt_rollupHourly {s : Sample} {n : Int}
    (hs : s ∈ joinedSamples db (n * microsPerHour) (n * microsPerHour + microsPerHour))
    (aggregates : List Aggregate) :
    rowAt Aggregate.key (s.deviceId, .hour, n * microsPerHour)
        (rollupHourly db (n * nanosPerHour) aggregates) =
      some (hourRow (n * microsPerHour) s.deviceId
        ((joinedSamples db (n * microsPerHour) (n * microsPerHour + microsPerHour)).filter
          fun x => x.deviceId == s.deviceId)) := by
  simp only [rollupHourly]
  rw [rowAt_overwrite, toTimestamp_hours, toTimestamp_nextHour]
  have hgroup : rowAt Aggregate.key (s.deviceId, BucketKind.hour, n * microsPerHour)
      (groupRows Sample.deviceId (hourRow (n * microsPerHour))
        (joinedSamples db (n * microsPerHour) (n * microsPerHour + microsPerHour))) =
      some _ :=
    rowAt_groupRows (key_hourRow _) (hourRow_injective (n * microsPerHour)) hs
  rw [hgroup, Option.some_or]

/-- A row for which the roll-up finds no sample stays. -/
theorem rowAt_rollupHourly_same {device : Uuid} {bucket : BucketKind} {t n : Int}
    (hmiss : ∀ s ∈ joinedSamples db (n * microsPerHour) (n * microsPerHour + microsPerHour),
      (s.deviceId, BucketKind.hour, n * microsPerHour) ≠ (device, bucket, t))
    (aggregates : List Aggregate) :
    rowAt Aggregate.key (device, bucket, t) (rollupHourly db (n * nanosPerHour) aggregates) =
      rowAt Aggregate.key (device, bucket, t) aggregates := by
  simp only [rollupHourly]
  rw [rowAt_overwrite, toTimestamp_hours, toTimestamp_nextHour]
  have hgroup : rowAt Aggregate.key (device, bucket, t)
      (groupRows Sample.deviceId (hourRow (n * microsPerHour))
        (joinedSamples db (n * microsPerHour) (n * microsPerHour + microsPerHour))) = none :=
    rowAt_groupRows_none (key_hourRow _) hmiss
  rw [hgroup, Option.none_or]

end Hourly

section Daily

variable {aggregates : List Aggregate} {n : Int}

theorem dayRow_injective (start : Int) :
    Function.Injective fun d : Uuid => (d, BucketKind.day, start) := by
  intro d d' h
  exact congrArg Prod.fst h

theorem key_dayRow (start : Int) (device : Uuid) (hours : List Aggregate) :
    (dayRow start device hours).key = (device, .day, start) := rfl

theorem mem_hourRows {lo hi : Int} {r : Aggregate} :
    r ∈ hourRows lo hi aggregates ↔
      r ∈ aggregates ∧ r.bucket = .hour ∧ lo ≤ r.bucketStart ∧ r.bucketStart < hi := by
  unfold hourRows
  rw [List.mem_filter, during_iff, beq_iff_eq]

/-- The bytes of a summed day are those of the hour rows in it. -/
theorem bytes_dayRow (hnodup : (aggregates.map Aggregate.key).Nodup)
    (haligned : ∀ r ∈ aggregates, r.bucket = .hour → ∃ m : Int, r.bucketStart = m * microsPerHour)
    (dir : Direction) (device : Uuid) (start : Int) :
    (dayRow start device
      ((hourRows (n * microsPerDay) (n * microsPerDay + microsPerDay) aggregates).filter
        fun r => r.deviceId == device)).bytes dir =
      ∑ i ∈ Finset.range 24,
        bytesAt aggregates dir device .hour ((24 * n + i) * microsPerHour) := by
  have hcolumn : (dayRow start device
      ((hourRows (n * microsPerDay) (n * microsPerDay + microsPerDay) aggregates).filter
        fun r => r.deviceId == device)).bytes dir =
      columnSum (during (fun r => r.deviceId == device && r.bucket == .hour)
        Aggregate.bucketStart (n * microsPerDay) (n * microsPerDay + (24 : Nat) * microsPerHour))
        (Aggregate.bytes dir) aggregates := by
    have hfilter :
        (hourRows (n * microsPerDay) (n * microsPerDay + microsPerDay) aggregates).filter
          (fun r => r.deviceId == device) =
        aggregates.filter (during (fun r => r.deviceId == device && r.bucket == .hour)
          Aggregate.bucketStart (n * microsPerDay)
          (n * microsPerDay + (24 : Nat) * microsPerHour)) := by
      unfold hourRows
      rw [List.filter_filter]
      refine List.filter_congr ?_
      intro r _
      simp only [during, Bool.and_assoc]
      rfl
    rw [hfilter]
    cases dir
    · rfl
    · rfl
  have hwidth : 0 ≤ microsPerHour := by decide
  rw [hcolumn, columnSum_slices _ _ _ _ _ hwidth]
  refine Finset.sum_congr rfl ?_
  intro i _
  -- the rows of one slice are the row of its hour
  have hday : n * microsPerDay = 24 * n * microsPerHour := by
    unfold microsPerDay
    ring
  have hslice : (24 * n + i) * microsPerHour = 24 * n * microsPerHour + i * microsPerHour := by
    ring
  unfold bytesAt
  refine columnSum_rowAt hnodup _ ?_ _
  intro r hr
  rw [during_iff, Bool.and_eq_true, beq_iff_eq, beq_iff_eq, hday]
  simp only [Aggregate.key, Prod.mk.injEq]
  constructor
  · rintro ⟨⟨hdevice, hbucket⟩, hlo, hhi⟩
    obtain ⟨m, hm⟩ := haligned r hr hbucket
    refine ⟨hdevice, hbucket, ?_⟩
    rw [hm] at hlo hhi ⊢
    unfold microsPerHour at hlo hhi ⊢
    omega
  · rintro ⟨hdevice, hbucket, hstart⟩
    refine ⟨⟨hdevice, hbucket⟩, ?_, ?_⟩
    · omega
    · rw [hstart]
      unfold microsPerHour
      omega

/-- A day row after its roll-up. -/
theorem rowAt_rollupDaily {r : Aggregate}
    (hr : r ∈ hourRows (n * microsPerDay) (n * microsPerDay + microsPerDay) aggregates) :
    rowAt Aggregate.key (r.deviceId, .day, n * microsPerDay)
        (rollupDaily (n * nanosPerDay) aggregates) =
      some (dayRow (n * microsPerDay) r.deviceId
        ((hourRows (n * microsPerDay) (n * microsPerDay + microsPerDay) aggregates).filter
          fun x => x.deviceId == r.deviceId)) := by
  simp only [rollupDaily]
  rw [rowAt_overwrite, toTimestamp_days, toTimestamp_nextDay]
  have hgroup : rowAt Aggregate.key (r.deviceId, BucketKind.day, n * microsPerDay)
      (groupRows Aggregate.deviceId (dayRow (n * microsPerDay))
        (hourRows (n * microsPerDay) (n * microsPerDay + microsPerDay) aggregates)) =
      some _ :=
    rowAt_groupRows (key_dayRow _) (dayRow_injective (n * microsPerDay)) hr
  rw [hgroup, Option.some_or]

/-- A row for which the roll-up finds no hour row stays. -/
theorem rowAt_rollupDaily_same {device : Uuid} {bucket : BucketKind} {t : Int}
    (hmiss : ∀ r ∈ hourRows (n * microsPerDay) (n * microsPerDay + microsPerDay) aggregates,
      (r.deviceId, BucketKind.day, n * microsPerDay) ≠ (device, bucket, t)) :
    rowAt Aggregate.key (device, bucket, t) (rollupDaily (n * nanosPerDay) aggregates) =
      rowAt Aggregate.key (device, bucket, t) aggregates := by
  simp only [rollupDaily]
  rw [rowAt_overwrite, toTimestamp_days, toTimestamp_nextDay]
  have hgroup : rowAt Aggregate.key (device, bucket, t)
      (groupRows Aggregate.deviceId (dayRow (n * microsPerDay))
        (hourRows (n * microsPerDay) (n * microsPerDay + microsPerDay) aggregates)) = none :=
    rowAt_groupRows_none (key_dayRow _) hmiss
  rw [hgroup, Option.none_or]

end Daily

/-- What the roll-ups keep of the table, and what they rely on. -/
structure WellKept (aggregates : List Aggregate) : Prop where
  key : (aggregates.map Aggregate.key).Nodup
  aligned : ∀ r ∈ aggregates, r.bucket = .hour → ∃ m : Int, r.bucketStart = m * microsPerHour

theorem WellKept.rollupHourly {aggregates : List Aggregate} (h : WellKept aggregates) (db : Db)
    (n : Int) : WellKept (rollupHourly db (n * nanosPerHour) aggregates) where
  key := nodup_overwrite (nodup_groupRows (key_hourRow _) (hourRow_injective _)) h.key
  aligned := by
    intro r hr hbucket
    rcases mem_overwrite hr with hr | hr
    · obtain ⟨s, _, rfl⟩ := mem_groupRows.mp hr
      exact ⟨n, toTimestamp_hours n⟩
    · exact h.aligned r hr hbucket

theorem WellKept.rollupDaily {aggregates : List Aggregate} (h : WellKept aggregates) (n : Int) :
    WellKept (rollupDaily (n * nanosPerDay) aggregates) where
  key := nodup_overwrite (nodup_groupRows (key_dayRow _) (dayRow_injective _)) h.key
  aligned := by
    intro r hr hbucket
    rcases mem_overwrite hr with hr | hr
    · obtain ⟨s, _, rfl⟩ := mem_groupRows.mp hr
      cases hbucket
    · exact h.aligned r hr hbucket

end Bandwidth
end Db
end ZeroVpn
