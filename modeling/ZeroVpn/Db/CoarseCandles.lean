import ZeroVpn.Db.CandleConsistency

/-!
# Coarse timeframes

The candles of a day, a week or a month come from the daily tables, which
`rollup_daily` fills from the minute tables, device by device.

For a device or a server this is the fold of the minute rows.  For a user the
devices are combined per day and not per minute: the high of the candle is the
greatest sum, over the devices, of the highs of a day.  The two ways agree where
only one device of the user has rows on each day.

A roll-up or a query with a figure out of range fails; the results are about the
others.
-/

namespace ZeroVpn

open Library

namespace Db
namespace Candles

open Bandwidth (microsPerDay microsPerHour toTimestamp_days toTimestamp_nextDay)

/-- Midnight of the day. -/
def startOfDay (t : Int) : Int := t / microsPerDay * microsPerDay

/-- The bucket of a minute in a coarse timeframe. -/
def coarseBucket (tf : Timeframe) (t : Int) : Int :=
  match tf with
  | .d1 => startOfDay t
  | tf => tf.bucket t

/-- The roll-ups of some days, each given by its number. -/
def rollUpDays (days : List Int) (minutes daily : List CandleRow) :
    Except DbError (List CandleRow) :=
  days.foldlM
    (fun daily n => rollupDaily (n * nanosPerDay) (n * nanosPerDay + nanosPerDay) minutes daily)
    daily

/-- The store after the roll-ups of some days. -/
def CandleStore.rollUp (store : CandleStore) (days : List Int) : Except DbError CandleStore := do
  let deviceDays ← rollUpDays days store.deviceMinutes store.deviceDays
  let serverDays ← rollUpDays days store.serverMinutes store.serverDays
  pure { store with deviceDays := deviceDays, serverDays := serverDays }

/-- The minute rows of a coarse bucket, of days before the cursor. -/
def minuteRows (store : CandleStore) (series : Series) (tf : Timeframe) (before : Option Int)
    (b : Int) : List CandleRow :=
  (store.rows false series).filter fun r =>
    olderThan (fun t => t) before (startOfDay r.bucketStart) &&
      (coarseBucket tf r.bucketStart == b)

/-- The candle of every id and day, from its minute rows. -/
def dayRows (rows : List CandleRow) : List CandleRow :=
  groupRows (fun r => (r.id, startOfDay r.bucketStart)) (fun k rs => dayCandle k.2 k.1 rs) rows

/-- On each day only one of the devices has rows. -/
def OneDeviceADay (rows : List CandleRow) : Prop :=
  ∀ r ∈ rows, ∀ r' ∈ rows, startOfDay r.bucketStart = startOfDay r'.bucketStart → r.id = r'.id

section Days

variable {minutes old daily' : List CandleRow} {days : List Int}

/-- Roll-ups that go through, one after the other. -/
theorem rollUpDays_cons {n : Int} (h : rollUpDays (n :: days) minutes old = .ok daily') :
    ∃ mid, rollupDaily (n * nanosPerDay) (n * nanosPerDay + nanosPerDay) minutes old = .ok mid ∧
      rollUpDays days minutes mid = .ok daily' := by
  unfold rollUpDays at h
  rw [List.foldlM_cons] at h
  cases hday : rollupDaily (n * nanosPerDay) (n * nanosPerDay + nanosPerDay) minutes old with
  | error e =>
      rw [hday] at h
      cases h
  | ok mid =>
      rw [hday] at h
      exact ⟨mid, rfl, h⟩

/-- Coarse buckets are made of whole days. -/
theorem coarseBucket_eq {tf : Timeframe} (h : tf.usesDaily = true) (t : Int) :
    coarseBucket tf t = tf.bucket (startOfDay t) := by
  cases tf with
  | d1 =>
      rfl
  | d7 =>
      change dateBin (7 * 24 * 60) t = dateBin (7 * 24 * 60) (startOfDay t)
      unfold dateBin binOrigin startOfDay microsPerDay microsPerHour
      omega
  | month1 =>
      have hday : ofTimestamp (startOfDay t) / nanosPerDay = ofTimestamp t / nanosPerDay := by
        unfold ofTimestamp startOfDay nanosPerDay microsPerDay microsPerHour
        omega
      change truncMonth t = truncMonth (startOfDay t)
      unfold truncMonth firstOfMonth dateOf
      rw [hday]
  | m1 | m3 | m5 | m15 | m30 | h1 =>
      cases h

/-- The minute rows of an id on a day. -/
theorem part_day (minutes : List CandleRow) (id : Uuid) (n : Int) :
    part minutes id (n * microsPerDay) (n * microsPerDay + microsPerDay) =
      minutes.filter fun r => decide ((r.id, startOfDay r.bucketStart) = (id, n * microsPerDay)) := by
  refine List.filter_congr ?_
  intro r _
  rw [Bool.eq_iff_iff, during_iff, beq_iff_eq, decide_eq_true_iff, Prod.mk.injEq]
  refine and_congr_right fun _ => ?_
  unfold startOfDay microsPerDay microsPerHour
  constructor
  · intro h
    omega
  · intro h
    omega

/-- A roll-up of a day, for an id with rows on it. -/
theorem rowAt_rollupDay {id : Uuid} {n : Int}
    (h : rollupDaily (n * nanosPerDay) (n * nanosPerDay + nanosPerDay) minutes old = .ok daily')
    (hpart : part minutes id (n * microsPerDay) (n * microsPerDay + microsPerDay) ≠ []) :
    rowAt CandleRow.key (id, n * microsPerDay) daily' =
      some (dayCandle (n * microsPerDay) id
        (part minutes id (n * microsPerDay) (n * microsPerDay + microsPerDay))) := by
  have hrow := @rowAt_rollupDaily minutes old id _ _ daily' h
  rw [toTimestamp_days, toTimestamp_nextDay] at hrow
  exact hrow hpart

/-- A row of the daily table after the roll-ups. -/
theorem mem_rollUpDays {r : CandleRow} (h : rollUpDays days minutes old = .ok daily')
    (hr : r ∈ daily') :
    r ∈ old ∨ ∃ n ∈ days, ∃ x ∈ part minutes r.id (n * microsPerDay)
        (n * microsPerDay + microsPerDay),
      r = dayCandle (n * microsPerDay) x.id
        (part minutes x.id (n * microsPerDay) (n * microsPerDay + microsPerDay)) := by
  induction days generalizing old with
  | nil =>
      cases h
      exact .inl hr
  | cons n days ih =>
      obtain ⟨mid, hday, hdays⟩ := rollUpDays_cons h
      rcases ih hdays with hmem | ⟨m, hm, hrow⟩
      · rw [(rollupDaily_eq_ok hday).2] at hmem
        rcases mem_overwrite hmem with hnew | hold
        · refine .inr ⟨n, List.mem_cons_self, ?_⟩
          obtain ⟨x, hx, rfl⟩ := mem_groupRows.mp hnew
          rw [toTimestamp_days, toTimestamp_nextDay] at hx ⊢
          obtain ⟨hmem, hin⟩ := List.mem_filter.mp hx
          rw [filter_between_id]
          exact ⟨x, mem_part.mpr ⟨hmem, rfl, between_iff.mp hin⟩, rfl⟩
        · exact .inl hold
      · exact .inr ⟨m, List.mem_cons_of_mem _ hm, hrow⟩

/-- The row of a rolled-up day. -/
theorem rowAt_rollUpDays {id : Uuid} {n : Int} (h : rollUpDays days minutes old = .ok daily')
    (hpart : part minutes id (n * microsPerDay) (n * microsPerDay + microsPerDay) ≠ [])
    (hcase : n ∈ days ∨ rowAt CandleRow.key (id, n * microsPerDay) old =
      some (dayCandle (n * microsPerDay) id
        (part minutes id (n * microsPerDay) (n * microsPerDay + microsPerDay)))) :
    rowAt CandleRow.key (id, n * microsPerDay) daily' =
      some (dayCandle (n * microsPerDay) id
        (part minutes id (n * microsPerDay) (n * microsPerDay + microsPerDay))) := by
  induction days generalizing old with
  | nil =>
      cases h
      rcases hcase with hcase | hcase
      · cases hcase
      · exact hcase
  | cons m days ih =>
      obtain ⟨mid, hday, hdays⟩ := rollUpDays_cons h
      refine ih hdays ?_
      by_cases hm : m = n
      · subst hm
        exact .inr (rowAt_rollupDay hday hpart)
      · rcases hcase with hcase | hcase
        · rcases List.mem_cons.mp hcase with hcase | hcase
          · exact absurd hcase.symm hm
          · exact .inl hcase
        · -- another day leaves the row alone
          refine .inr ?_
          rw [rowAt_rollupDaily_same hday]
          · exact hcase
          · intro hsame
            rw [toTimestamp_days] at hsame
            refine absurd (Int.eq_of_mul_eq_mul_right ?_ hsame.symm) hm
            decide

theorem nodup_rollUpDays (h : rollUpDays days minutes old = .ok daily')
    (hold : (old.map CandleRow.key).Nodup) : (daily'.map CandleRow.key).Nodup := by
  induction days generalizing old with
  | nil =>
      cases h
      exact hold
  | cons n days ih =>
      obtain ⟨mid, hday, hdays⟩ := rollUpDays_cons h
      refine ih hdays ?_
      rw [(rollupDaily_eq_ok hday).2]
      refine nodup_overwrite ?_ hold
      exact nodup_groupRows (key_dayCandle _) (dayCandle_injective (toTimestamp (n * nanosPerDay)))

theorem mem_dayRows {r : CandleRow} {rows : List CandleRow} :
    r ∈ dayRows rows ↔ ∃ x ∈ rows, r = dayCandle (startOfDay x.bucketStart) x.id
      (rows.filter fun y =>
        decide ((y.id, startOfDay y.bucketStart) = (x.id, startOfDay x.bucketStart))) :=
  mem_groupRows

theorem nodup_dayRows (rows : List CandleRow) : ((dayRows rows).map CandleRow.key).Nodup :=
  nodup_groupRows (fun _ _ => rfl) Function.injective_id

/-- The rows of some ids and days in the daily table are the candles of these ids and days. -/
theorem rollUpDays_perm (h : rollUpDays days minutes old = .ok daily')
    (hkeys : (old.map CandleRow.key).Nodup) {p : Uuid → Bool} {q : Int → Bool}
    (hcover : ∀ r ∈ minutes, p r.id = true → q (startOfDay r.bucketStart) = true →
      r.bucketStart / microsPerDay ∈ days)
    (hold : ∀ r ∈ old, p r.id = true → q r.bucketStart = false) :
    (daily'.filter fun r => p r.id && q r.bucketStart).Perm
      (dayRows (minutes.filter fun r => p r.id && q (startOfDay r.bucketStart))) := by
  have hday : ∀ x : CandleRow, (p x.id && q (startOfDay x.bucketStart)) = true →
      (minutes.filter fun r => p r.id && q (startOfDay r.bucketStart)).filter
          (fun r => decide ((r.id, startOfDay r.bucketStart) = (x.id, startOfDay x.bucketStart))) =
        part minutes x.id (startOfDay x.bucketStart)
          (startOfDay x.bucketStart + microsPerDay) := by
    intro x hx
    unfold startOfDay at hx ⊢
    rw [part_day, List.filter_filter]
    refine List.filter_congr ?_
    intro r _
    by_cases hr : (r.id, startOfDay r.bucketStart) = (x.id, x.bucketStart / microsPerDay *
        microsPerDay)
    · obtain ⟨hid, htime⟩ := Prod.mk.injEq .. ▸ hr
      unfold startOfDay at htime ⊢
      simp only [hid, htime, hx, Bool.and_true]
    · unfold startOfDay at hr ⊢
      simp [hr]
  refine (List.perm_ext_iff_of_nodup (List.Nodup.of_map _ (nodup_rollUpDays h hkeys) |>.filter _)
    (List.Nodup.of_map _ (nodup_dayRows _))).mpr ?_
  intro r
  rw [List.mem_filter]
  constructor
  · rintro ⟨hr, hin⟩
    rcases mem_rollUpDays h hr with hmem | ⟨n, _, x, hx, rfl⟩
    · obtain ⟨hp, hq⟩ := Bool.and_eq_true_iff.mp hin
      rw [hold r hmem hp] at hq
      cases hq
    · obtain ⟨hmem, _, hlo, hhi⟩ := mem_part.mp hx
      have hstart : startOfDay x.bucketStart = n * microsPerDay := by
        unfold startOfDay microsPerDay microsPerHour at *
        omega
      change (p x.id && q (n * microsPerDay)) = true at hin
      rw [← hstart] at hin ⊢
      refine mem_dayRows.mpr ⟨x, List.mem_filter.mpr ⟨hmem, hin⟩, ?_⟩
      rw [hday x hin]
  · intro hr
    obtain ⟨x, hx, rfl⟩ := mem_dayRows.mp hr
    obtain ⟨hmem, hin⟩ := List.mem_filter.mp hx
    obtain ⟨hp, hq⟩ := Bool.and_eq_true_iff.mp hin
    rw [hday x hin]
    refine ⟨?_, hin⟩
    have hpart : part minutes x.id (x.bucketStart / microsPerDay * microsPerDay)
        (x.bucketStart / microsPerDay * microsPerDay + microsPerDay) ≠ [] := by
      refine List.ne_nil_of_mem (mem_part.mpr ⟨hmem, rfl, ?_⟩)
      unfold microsPerDay microsPerHour
      omega
    exact (rowAt_mem (rowAt_rollUpDays h hpart (.inl (hcover x hmem hp hq)))).1

end Days

section Perm

variable {rows rows' : List CandleRow}

theorem dayCandle_perm (h : rows.Perm rows') (b : Int) (id : Uuid) :
    dayCandle b id rows = dayCandle b id rows' :=
  dayCandle_congr (fun c => foldColumn_perm c.op c.value h) b id

theorem combineDevices_perm (h : rows.Perm rows') (user : Uuid) (t : Int) :
    combineDevices user t rows = combineDevices user t rows' := by
  have hmax : foldColumn max CandleRow.samples rows = foldColumn max CandleRow.samples rows' :=
    foldColumn_perm max CandleRow.samples h
  have hsum : ∀ col : CandleRow → Int, (rows.map col).sum = (rows'.map col).sum := fun col =>
    (h.map col).sum_eq
  simp only [combineDevices, hmax, hsum]

/-- The order of the rows does not matter. -/
theorem bars_perm (series : Series) (h : rows.Perm rows') :
    (series.bars rows).Perm (series.bars rows') := by
  cases series with
  | device id =>
      exact h
  | server id =>
      exact h
  | user id =>
      have hgroups : (fun t => combineDevices id t (rows.filter fun r => r.bucketStart == t)) =
          fun t => combineDevices id t (rows'.filter fun r => r.bucketStart == t) := by
        funext t
        exact combineDevices_perm (h.filter _) id t
      change (groupRows _ _ rows).Perm (groupRows _ _ rows')
      unfold groupRows
      rw [hgroups]
      exact (h.map CandleRow.bucketStart).dedup.map _

theorem candleOf_perm (series : Series) (b : Int) (h : rows.Perm rows') :
    candleOf series b (series.bars rows) = candleOf series b (series.bars rows') := by
  unfold candleOf
  rw [dayCandle_perm (bars_perm series h)]

/-- The fold of day candles is the fold of their minute rows. -/
theorem fold_dayRows (c : Column) (rows : List CandleRow) :
    c.fold (dayRows rows) = c.fold rows := by
  refine foldColumn_groupRows c.op ?_ rows
  intro k rs hne
  have hsome : ∃ x, c.fold rs = some x := by
    cases hfold : c.fold rs with
    | none =>
        exact absurd ((foldColumn_eq_none c.op).mp hfold) hne
    | some x =>
        exact ⟨x, rfl⟩
  obtain ⟨x, hx⟩ := hsome
  have hvalue : c.value (dayCandle k.2 k.1 rs) = (c.fold rs).getD 0 := by
    cases c
    all_goals rfl
  rw [hvalue, hx]
  exact hx.symm

/-- Bars of periods with one row each fold like the rows. -/
theorem fold_perPeriod (c : Column) (user : Uuid) (h : (rows.map CandleRow.bucketStart).Nodup) :
    c.fold (perPeriod user rows) = c.fold rows := by
  have hbars : perPeriod user rows = rows.map fun r => combineDevices user r.bucketStart [r] := by
    unfold perPeriod groupRows
    rw [h.dedup, List.map_map]
    refine List.map_congr_left ?_
    intro r hr
    exact congrArg (combineDevices user r.bucketStart) (filter_key_eq_singleton h hr)
  have hvalue : ∀ r : CandleRow, c.value (combineDevices user r.bucketStart [r]) = c.value r := by
    intro r
    cases c
    all_goals simp [Column.value, combineDevices, foldColumn]
  rw [hbars]
  unfold Column.fold
  rw [foldColumn_map]
  simp only [hvalue]

end Perm

section Store

variable {store store' : CandleStore} {series : Series} {tf : Timeframe} {before : Option Int} {b : Int}

/-- The table that a series is read from. -/
def CandleStore.table (store : CandleStore) (daily : Bool) : Series → List CandleRow
  | .server _ => if daily then store.serverDays else store.serverMinutes
  | _ => if daily then store.deviceDays else store.deviceMinutes

/-- The ids that a series is about. -/
def CandleStore.selects (store : CandleStore) : Series → Uuid → Bool
  | .device id => fun k => k == id
  | .server id => fun k => k == id
  | .user id => fun k => store.owner k == some id

theorem rows_eq (store : CandleStore) (daily : Bool) (series : Series) :
    store.rows daily series =
      (store.table daily series).filter fun r => store.selects series r.id := by
  cases series
  all_goals rfl

/-- Roll-ups of the store fill the table that a series is read from. -/
theorem table_rollUp {days : List Int} (h : store.rollUp days = .ok store') (series : Series) :
    rollUpDays days (store.table false series) (store.table true series) =
        .ok (store'.table true series) ∧
      store'.selects series = store.selects series := by
  unfold CandleStore.rollUp at h
  cases hdevices : rollUpDays days store.deviceMinutes store.deviceDays with
  | error e =>
      rw [hdevices] at h
      cases h
  | ok deviceDays =>
      rw [hdevices] at h
      cases hservers : rollUpDays days store.serverMinutes store.serverDays with
      | error e =>
          rw [hservers] at h
          cases h
      | ok serverDays =>
          rw [hservers] at h
          cases h
          cases series with
          | server id =>
              exact ⟨hservers, rfl⟩
          | device id =>
              exact ⟨hdevices, rfl⟩
          | user id =>
              exact ⟨hdevices, rfl⟩

/-- The rows that a query finds for a coarse bucket. -/
theorem bucketRows_rollUp (htf : tf.usesDaily = true) {days : List Int}
    (h : store.rollUp days = .ok store')
    (hdays : ((store.table true series).map CandleRow.key).Nodup)
    (hcover : ∀ r ∈ store.rows false series, coarseBucket tf r.bucketStart = b →
      r.bucketStart / microsPerDay ∈ days)
    (hold : ∀ r ∈ store.rows true series, tf.bucket r.bucketStart ≠ b) :
    (bucketRows tf before b (store'.rows tf.usesDaily series)).Perm
      (dayRows (minuteRows store series tf before b)) := by
  obtain ⟨htable, hselects⟩ := table_rollUp h series
  have hdaily : bucketRows tf before b (store'.rows tf.usesDaily series) =
      (store'.table true series).filter fun r =>
        store.selects series r.id &&
          (olderThan (fun t => t) before r.bucketStart && (tf.bucket r.bucketStart == b)) := by
    unfold bucketRows
    rw [htf, rows_eq, hselects, List.filter_filter]
    refine List.filter_congr ?_
    intro r _
    rw [Bool.and_comm]
    cases series
    all_goals rfl
  have hminute : minuteRows store series tf before b =
      (store.table false series).filter fun r => store.selects series r.id &&
        (olderThan (fun t => t) before (startOfDay r.bucketStart) &&
          (tf.bucket (startOfDay r.bucketStart) == b)) := by
    unfold minuteRows
    rw [rows_eq, List.filter_filter]
    refine List.filter_congr ?_
    intro r _
    rw [Bool.and_comm, coarseBucket_eq htf]
  rw [hdaily, hminute]
  refine rollUpDays_perm (q := fun t => olderThan (fun t => t) before t && (tf.bucket t == b))
    htable hdays ?_ ?_
  · intro r hr hselected hin
    refine hcover r ?_ ?_
    · rw [rows_eq]
      exact List.mem_filter.mpr ⟨hr, hselected⟩
    · rw [coarseBucket_eq htf]
      exact beq_iff_eq.mp (Bool.and_eq_true_iff.mp hin).2
  · intro r hr hselected
    have hbucket := hold r (by
      rw [rows_eq]
      exact List.mem_filter.mpr ⟨hr, hselected⟩)
    simp [hbucket]

/-- With one device a day, days and minutes combine to the same candle. -/
theorem oneDevice_candle {user : Uuid} {rows : List CandleRow}
    (hkeys : (rows.map CandleRow.key).Nodup) (hone : OneDeviceADay rows) :
    candleOf (.user user) b (perPeriod user (dayRows rows)) =
      candleOf (.user user) b (perPeriod user rows) := by
  have hminutes : (rows.map CandleRow.bucketStart).Nodup := by
    refine (List.nodup_map_iff_inj_on (List.Nodup.of_map _ hkeys)).mpr ?_
    intro r hr r' hr' htime
    have hid := hone r hr r' hr' (congrArg startOfDay htime)
    exact List.inj_on_of_nodup_map hkeys hr hr' (Prod.ext hid htime)
  have hdays : ((dayRows rows).map CandleRow.bucketStart).Nodup := by
    refine (List.nodup_map_iff_inj_on (List.Nodup.of_map _ (nodup_dayRows rows))).mpr ?_
    intro r hr r' hr' htime
    obtain ⟨x, hx, rfl⟩ := mem_dayRows.mp hr
    obtain ⟨x', hx', rfl⟩ := mem_dayRows.mp hr'
    have hid := hone x hx x' hx' htime
    exact List.inj_on_of_nodup_map (nodup_dayRows rows) hr hr' (Prod.ext hid htime)
  unfold candleOf
  rw [dayCandle_congr]
  intro c
  rw [fold_perPeriod c user hdays, fold_perPeriod c user hminutes, fold_dayRows]

/-- The user of a month with one device on the first day and another one on the second. -/
def sampleMonth : CandleStore := sampleStore [sampleCandle 20 0 8 60, sampleCandle 21 1440 4 60]

end Store

end Candles
end Db
end ZeroVpn
