import Mathlib.Algebra.Order.BigOperators.Group.List
import ZeroVpn.Db.CandleQueries

/-!
# The average of a candle lies between its low and its high

A row is sound if its sum lies between its low and its high, each taken for all
its samples.  Bars, merged minutes and the daily roll-up are sound, and a sound
row decodes to a candle with `low ≤ avg ≤ high`.

`user_candles` adds up the lows, the highs and the sums of the devices of a
period, and takes the greatest number of samples.  A device that was seen for
fewer samples then counts in full for the low and in part for the average.
`candles_consistent_iff` says when this stays within bounds.
-/

namespace ZeroVpn

open Library

namespace Db
namespace Candles

def CandleRow.high : Direction → CandleRow → Int
  | .rx, r => r.rxHigh
  | .tx, r => r.txHigh

def CandleRow.low : Direction → CandleRow → Int
  | .rx, r => r.rxLow
  | .tx, r => r.txLow

def CandleRow.total : Direction → CandleRow → Int
  | .rx, r => r.rxSum
  | .tx, r => r.txSum

def Candle.high : Direction → Candle → Int
  | .rx, c => c.rxHigh
  | .tx, c => c.txHigh

def Candle.low : Direction → Candle → Int
  | .rx, c => c.rxLow
  | .tx, c => c.txLow

def Candle.avg : Direction → Candle → Int
  | .rx, c => c.rxAvg
  | .tx, c => c.txAvg

/-- The sum of a row lies between its low and its high for all its samples. -/
structure Sound (r : CandleRow) : Prop where
  samples : 1 ≤ r.samples
  low : ∀ d, r.low d * r.samples ≤ r.total d
  high : ∀ d, r.total d ≤ r.high d * r.samples

instance (r : CandleRow) : Decidable (Sound r) :=
  decidable_of_iff (1 ≤ r.samples ∧
      (r.rxLow * r.samples ≤ r.rxSum ∧ r.txLow * r.samples ≤ r.txSum) ∧
      r.rxSum ≤ r.rxHigh * r.samples ∧ r.txSum ≤ r.txHigh * r.samples)
    ⟨fun ⟨hsamples, hlow, hhigh⟩ =>
      ⟨hsamples, fun d => match d with | .rx => hlow.1 | .tx => hlow.2,
        fun d => match d with | .rx => hhigh.1 | .tx => hhigh.2⟩,
      fun h => ⟨h.samples, ⟨h.low .rx, h.low .tx⟩, h.high .rx, h.high .tx⟩⟩

/-- Sound tables, with minute rows that start at a minute. -/
structure CandleStore.Sound (store : CandleStore) : Prop where
  minutes : ∀ r ∈ store.deviceMinutes ++ store.serverMinutes, Candles.Sound r
  days : ∀ r ∈ store.deviceDays ++ store.serverDays, Candles.Sound r
  aligned : ∀ r ∈ store.deviceMinutes, r.bucketStart % 60000000 = 0

/-- Every candle that a query returns has its average between its low and its high. -/
def CandleStore.Consistent (store : CandleStore) (series : Series) : Prop :=
  ∀ plan tf before limit candles, store.candles plan series tf before limit = .ok candles →
    ∀ c ∈ candles, ∀ d, c.low d ≤ c.avg d ∧ c.avg d ≤ c.high d

/-- The rates of the devices are not negative. -/
def CandleStore.Nonneg (store : CandleStore) : Prop :=
  ∀ r ∈ store.deviceMinutes ++ store.deviceDays, ∀ d, 0 ≤ r.low d

/-- The greatest number of samples. -/
def mostSamples (rows : List CandleRow) : Int :=
  (foldColumn max CandleRow.samples rows).getD 0

/-- What the samples that devices are short of would add, at their lows, is no more than what the
devices had above their lows; and the same for the highs from below. -/
structure Weighed (rows : List CandleRow) : Prop where
  low : ∀ d, (rows.map fun r => r.low d * (mostSamples rows - r.samples)).sum ≤
    (rows.map fun r => r.total d - r.low d * r.samples).sum
  high : ∀ d, (rows.map fun r => r.total d - r.high d * r.samples).sum ≤
    (rows.map fun r => r.high d * (mostSamples rows - r.samples)).sum

/-- The devices of every user are weighed in every minute and on every day. -/
def CandleStore.Weighed (store : CandleStore) : Prop :=
  ∀ user daily t, Candles.Weighed
    ((store.rows daily (.user user)).filter fun r => r.bucketStart == t)

/-- The devices of every user are weighed in every minute and on every day whose combined figures a
query can return. -/
def CandleStore.WeighedInRange (store : CandleStore) : Prop :=
  ∀ user daily t,
    (combineDevices user t ((store.rows daily (.user user)).filter (·.bucketStart == t))).Bigint →
      Candles.Weighed ((store.rows daily (.user user)).filter fun r => r.bucketStart == t)

section Rows

variable {r r' : CandleRow} {rows : List CandleRow}

/-- A sound row that is merged with another one. -/
theorem sound_merge (h : Sound r) (h' : Sound r') : Sound (r'.merge r) := by
  have hpos := h.samples
  have hpos' := h'.samples
  have hbounds : ∀ d, (r'.merge r).low d = min (r.low d) (r'.low d) ∧
      (r'.merge r).high d = max (r.high d) (r'.high d) ∧
      (r'.merge r).total d = r.total d + r'.total d := by
    intro d
    cases d
    · exact ⟨rfl, rfl, rfl⟩
    · exact ⟨rfl, rfl, rfl⟩
  have hsamples : (r'.merge r).samples = r.samples + r'.samples := rfl
  constructor
  · omega
  · intro d
    have hlow := h.low d
    have hlow' := h'.low d
    have hmin := Int.mul_le_mul_of_nonneg_right (min_le_left (r.low d) (r'.low d))
      (by omega : 0 ≤ r.samples)
    have hmin' := Int.mul_le_mul_of_nonneg_right (min_le_right (r.low d) (r'.low d))
      (by omega : 0 ≤ r'.samples)
    rw [(hbounds d).1, (hbounds d).2.2, hsamples, Int.mul_add]
    omega
  · intro d
    have hhigh := h.high d
    have hhigh' := h'.high d
    have hmax := Int.mul_le_mul_of_nonneg_right (le_max_left (r.high d) (r'.high d))
      (by omega : 0 ≤ r.samples)
    have hmax' := Int.mul_le_mul_of_nonneg_right (le_max_right (r.high d) (r'.high d))
      (by omega : 0 ≤ r'.samples)
    rw [(hbounds d).2.1, (hbounds d).2.2, hsamples, Int.mul_add]
    omega

/-- Soundness does not depend on the key. -/
theorem Sound.relabel (h : Sound r) (id : Uuid) (b : Int) :
    Sound { r with id := id, bucketStart := b } := by
  constructor
  · exact h.samples
  · intro d
    cases d
    · exact h.low .rx
    · exact h.low .tx
  · intro d
    cases d
    · exact h.high .rx
    · exact h.high .tx

/-- The candle of one row. -/
theorem dayCandle_singleton (b : Int) (id : Uuid) (r : CandleRow) :
    dayCandle b id [r] = { r with id := id, bucketStart := b } := rfl

/-- The candle of one more row. -/
theorem dayCandle_cons (b : Int) (id : Uuid) (r : CandleRow) (hne : rows ≠ []) :
    dayCandle b id (r :: rows) =
      (dayCandle b id rows).merge { r with id := id, bucketStart := b } := by
  have hfold : ∀ (op : Int → Int → Int) (col : CandleRow → Int),
      (foldColumn op col (r :: rows)).getD 0 =
        op (col r) ((foldColumn op col rows).getD 0) := by
    intro op col
    rw [foldColumn_cons]
    cases hrows : foldColumn op col rows with
    | none =>
        exact absurd ((foldColumn_eq_none op).mp hrows) hne
    | some x =>
        rfl
  simp only [dayCandle, CandleRow.merge, hfold]

/-- The fold of sound rows is sound. -/
theorem sound_dayCandle (hne : rows ≠ []) (h : ∀ r ∈ rows, Sound r) (b : Int) (id : Uuid) :
    Sound (dayCandle b id rows) := by
  induction rows with
  | nil =>
      exact absurd rfl hne
  | cons r rows ih =>
      obtain ⟨hr, hrows⟩ := List.forall_mem_cons.mp h
      cases rows with
      | nil =>
          exact hr.relabel id b
      | cons r' rows =>
          rw [dayCandle_cons b id r (List.cons_ne_nil r' rows)]
          exact sound_merge (hr.relabel id b) (ih (List.cons_ne_nil r' rows) hrows)

/-- The daily roll-up of sound rows is sound. -/
theorem sound_rollupDaily {minutes daily daily' : List CandleRow}
    (hminutes : ∀ r ∈ minutes, Sound r) (hdaily : ∀ r ∈ daily, Sound r) {dayStart dayEnd : Int}
    (h : rollupDaily dayStart dayEnd minutes daily = .ok daily') : ∀ r ∈ daily', Sound r := by
  intro r hr
  rw [(rollupDaily_eq_ok h).2] at hr
  rcases mem_overwrite hr with hnew | hold
  · obtain ⟨x, hx, rfl⟩ := mem_groupRows.mp hnew
    refine sound_dayCandle (List.ne_nil_of_mem (List.mem_filter.mpr ⟨hx, ?_⟩)) ?_ _ _
    · exact beq_self_eq_true x.id
    · intro y hy
      exact hminutes y (List.mem_filter.mp (List.mem_filter.mp hy).1).1
  · exact hdaily r hold

/-- A sound row has its low at most at its high. -/
theorem Sound.low_le_high (h : Sound r) (d : Direction) : r.low d ≤ r.high d :=
  Int.le_of_mul_le_mul_right (le_trans (h.low d) (h.high d)) h.samples

/-- A sound row whose lows are not negative has no negative figure. -/
theorem Sound.nonneg (h : Sound r) (hlow : ∀ d, 0 ≤ r.low d) (c : Column) : 0 ≤ c.value r := by
  have hpos := h.samples
  have hhigh : ∀ d, 0 ≤ r.high d := fun d => le_trans (hlow d) (h.low_le_high d)
  have htotal : ∀ d, 0 ≤ r.total d := fun d =>
    le_trans (Int.mul_nonneg (hlow d) (by omega)) (h.low d)
  cases c with
  | rxHigh =>
      exact hhigh .rx
  | rxLow =>
      exact hlow .rx
  | rxSum =>
      exact htotal .rx
  | txHigh =>
      exact hhigh .tx
  | txLow =>
      exact hlow .tx
  | txSum =>
      exact htotal .tx
  | samples =>
      exact le_trans (by decide) hpos

/-- A figure that is no low is at most that of the fold, if figures are not negative. -/
theorem value_le_dayCandle {c : Column} (hc : c ≠ .rxLow ∧ c ≠ .txLow) (b : Int) (id : Uuid)
    (hnonneg : ∀ r ∈ rows, 0 ≤ c.value r) (hr : r ∈ rows) :
    c.value r ≤ c.value (dayCandle b id rows) := by
  have hop : ∀ x y, 0 ≤ x → 0 ≤ y → x ≤ c.op x y ∧ y ≤ c.op x y := by
    intro x y hx hy
    cases c
    case rxLow => exact absurd rfl hc.1
    case txLow => exact absurd rfl hc.2
    all_goals
      simp only [Column.op]
      omega
  induction rows generalizing r with
  | nil =>
      cases hr
  | cons x rows ih =>
      obtain ⟨hx, hrows⟩ := List.forall_mem_cons.mp hnonneg
      by_cases hne : rows = []
      · subst hne
        rw [List.mem_singleton.mp hr, dayCandle_singleton]
        cases c
        all_goals exact Int.le_refl _
      · have hvalue : c.value (dayCandle b id (x :: rows)) =
            c.op (c.value x) (c.value (dayCandle b id rows)) := by
          rw [dayCandle_cons b id x hne]
          cases c
          all_goals rfl
        have hfold : 0 ≤ c.value (dayCandle b id rows) := by
          obtain ⟨y, hy⟩ := List.exists_mem_of_ne_nil _ hne
          exact le_trans (hrows y hy) (ih hrows hy)
        rw [hvalue]
        rcases List.mem_cons.mp hr with rfl | hlater
        · exact (hop _ _ hx hfold).1
        · exact le_trans (ih hrows hlater) (hop _ _ hx hfold).2

/-- Rows without negative figures are in range if their fold is. -/
theorem bigint_of_dayCandle {b : Int} {id : Uuid} (hnonneg : ∀ r ∈ rows, ∀ c : Column, 0 ≤ c.value r)
    (hle : ∀ r ∈ rows, ∀ d, r.low d ≤ r.high d) (h : (dayCandle b id rows).Bigint) :
    ∀ r ∈ rows, r.Bigint := by
  intro r hr
  have hbelow : ∀ c : Column, c ≠ .rxLow ∧ c ≠ .txLow → c.value r < 2 ^ 63 := fun c hc =>
    lt_of_le_of_lt (value_le_dayCandle hc b id (fun x hx => hnonneg x hx c) hr) (h c).2
  intro c
  refine ⟨le_trans (by decide) (hnonneg r hr c), ?_⟩
  by_cases hrx : c = .rxLow
  · subst hrx
    exact lt_of_le_of_lt (hle r hr .rx) (hbelow .rxHigh (by decide))
  · by_cases htx : c = .txLow
    · subst htx
      exact lt_of_le_of_lt (hle r hr .tx) (hbelow .txHigh (by decide))
    · exact hbelow c ⟨hrx, htx⟩

/-- A sound row decodes to a consistent candle. -/
theorem decode_consistent (h : Sound r) (d : Direction) :
    (decodeCandle r).low d ≤ (decodeCandle r).avg d ∧
      (decodeCandle r).avg d ≤ (decodeCandle r).high d := by
  have hpos := h.samples
  have hmax : max r.samples 1 = r.samples := by omega
  have havg : (decodeCandle r).avg d = (r.total d).tdiv r.samples := by
    cases d
    · exact congrArg (Int.tdiv r.rxSum) hmax
    · exact congrArg (Int.tdiv r.txSum) hmax
  have hlow : (decodeCandle r).low d = r.low d := by
    cases d
    · rfl
    · rfl
  have hhigh : (decodeCandle r).high d = r.high d := by
    cases d
    · rfl
    · rfl
  rw [havg, hlow, hhigh]
  refine ⟨Int.le_tdiv_of_mul_le (by omega) (h.low d), ?_⟩
  have hself : (r.high d * r.samples).tdiv r.samples = r.high d :=
    Int.mul_tdiv_cancel _ (by omega)
  exact hself ▸ Int.tdiv_le_tdiv (by omega) (h.high d)

end Rows

section Devices

variable {rows : List CandleRow} {user : Uuid} {t : Int}

theorem sum_map_sub (f g : CandleRow → Int) (rows : List CandleRow) :
    (rows.map fun r => f r - g r).sum = (rows.map f).sum - (rows.map g).sum := by
  induction rows with
  | nil =>
      rfl
  | cons r rows ih =>
      simp only [List.map_cons, List.sum_cons, ih]
      omega

theorem sum_map_mul (f : CandleRow → Int) (n : Int) (rows : List CandleRow) :
    (rows.map fun r => f r * n).sum = (rows.map f).sum * n := by
  induction rows with
  | nil =>
      simp
  | cons r rows ih =>
      simp only [List.map_cons, List.sum_cons, ih, Int.add_mul]

theorem sum_map_shortfall (f : CandleRow → Int) (n : Int) (rows : List CandleRow) :
    (rows.map fun r => f r * (n - r.samples)).sum =
      (rows.map f).sum * n - (rows.map fun r => f r * r.samples).sum := by
  simp only [Int.mul_sub]
  rw [sum_map_sub, sum_map_mul]

theorem combine_figures (user : Uuid) (t : Int) (rows : List CandleRow) (d : Direction) :
    (combineDevices user t rows).low d = (rows.map (CandleRow.low d)).sum ∧
      (combineDevices user t rows).high d = (rows.map (CandleRow.high d)).sum ∧
      (combineDevices user t rows).total d = (rows.map (CandleRow.total d)).sum := by
  cases d
  · exact ⟨rfl, rfl, rfl⟩
  · exact ⟨rfl, rfl, rfl⟩

/-- The lower half, for the combined bar. -/
theorem weighed_low_iff (user : Uuid) (t : Int) (rows : List CandleRow) (d : Direction) :
    (rows.map fun r => r.low d * (mostSamples rows - r.samples)).sum ≤
        (rows.map fun r => r.total d - r.low d * r.samples).sum ↔
      (combineDevices user t rows).low d * (combineDevices user t rows).samples ≤
        (combineDevices user t rows).total d := by
  obtain ⟨hlow, _, htotal⟩ := combine_figures user t rows d
  have hsamples : (combineDevices user t rows).samples = mostSamples rows := rfl
  rw [hlow, htotal, hsamples, sum_map_shortfall, sum_map_sub]
  constructor
  · intro h
    omega
  · intro h
    omega

theorem weighed_high_iff (user : Uuid) (t : Int) (rows : List CandleRow) (d : Direction) :
    (rows.map fun r => r.total d - r.high d * r.samples).sum ≤
        (rows.map fun r => r.high d * (mostSamples rows - r.samples)).sum ↔
      (combineDevices user t rows).total d ≤
        (combineDevices user t rows).high d * (combineDevices user t rows).samples := by
  obtain ⟨_, hhigh, htotal⟩ := combine_figures user t rows d
  have hsamples : (combineDevices user t rows).samples = mostSamples rows := rfl
  rw [hhigh, htotal, hsamples, sum_map_shortfall, sum_map_sub]
  constructor
  · intro h
    omega
  · intro h
    omega

/-- The greatest number of samples is that of a row. -/
theorem mostSamples_cons (r : CandleRow) (hne : rows ≠ []) :
    mostSamples (r :: rows) = max r.samples (mostSamples rows) := by
  unfold mostSamples
  rw [foldColumn_cons]
  cases hrows : foldColumn max CandleRow.samples rows with
  | none =>
      exact absurd ((foldColumn_eq_none max).mp hrows) hne
  | some x =>
      rfl

theorem le_mostSamples {r : CandleRow} (hr : r ∈ rows) : r.samples ≤ mostSamples rows := by
  induction rows with
  | nil =>
      cases hr
  | cons x rows ih =>
      by_cases hne : rows = []
      · subst hne
        rw [List.mem_singleton.mp hr]
        exact Int.le_refl _
      · rw [mostSamples_cons x hne]
        rcases List.mem_cons.mp hr with rfl | hr
        · exact le_max_left _ _
        · exact le_trans (ih hr) (le_max_right _ _)

theorem mostSamples_mem (hne : rows ≠ []) : ∃ r ∈ rows, mostSamples rows = r.samples := by
  induction rows with
  | nil =>
      exact absurd rfl hne
  | cons x rows ih =>
      by_cases hrows : rows = []
      · subst hrows
        exact ⟨x, List.mem_singleton.mpr rfl, rfl⟩
      · obtain ⟨r, hr, hmost⟩ := ih hrows
        rw [mostSamples_cons x hrows, hmost]
        rcases le_total x.samples r.samples with hle | hle
        · exact ⟨r, List.mem_cons_of_mem _ hr, max_eq_right hle⟩
        · exact ⟨x, List.mem_cons_self, max_eq_left hle⟩

/-- Rows without negative figures combine to such a bar. -/
theorem value_combine_nonneg (hnonneg : ∀ r ∈ rows, ∀ c : Column, 0 ≤ c.value r) (c : Column) :
    0 ≤ c.value (combineDevices user t rows) := by
  have hsum : ∀ c : Column, 0 ≤ (rows.map c.value).sum := by
    intro c
    refine List.sum_nonneg ?_
    intro x hx
    obtain ⟨r, hr, rfl⟩ := List.mem_map.mp hx
    exact hnonneg r hr c
  cases c with
  | samples =>
      by_cases hne : rows = []
      · rw [hne]
        exact Int.le_refl _
      · obtain ⟨r, hr, hmost⟩ := mostSamples_mem hne
        change 0 ≤ mostSamples rows
        rw [hmost]
        exact hnonneg r hr .samples
  | rxHigh =>
      exact hsum .rxHigh
  | rxLow =>
      exact hsum .rxLow
  | rxSum =>
      exact hsum .rxSum
  | txHigh =>
      exact hsum .txHigh
  | txLow =>
      exact hsum .txLow
  | txSum =>
      exact hsum .txSum

/-- Weighed devices combine to a sound bar. -/
theorem sound_combine (hne : rows ≠ []) (h : ∀ r ∈ rows, Sound r) (hweighed : Weighed rows)
    (user : Uuid) (t : Int) : Sound (combineDevices user t rows) := by
  obtain ⟨r, hr⟩ := List.exists_mem_of_ne_nil _ hne
  constructor
  · exact le_trans (h r hr).samples (le_mostSamples hr)
  · intro d
    exact (weighed_low_iff user t rows d).mp (hweighed.low d)
  · intro d
    exact (weighed_high_iff user t rows d).mp (hweighed.high d)

/-- Devices that were seen for equally many samples are weighed. -/
theorem weighed_of_equal {n : Int} (h : ∀ r ∈ rows, Sound r) (hsamples : ∀ r ∈ rows, r.samples = n) :
    Weighed rows := by
  have hmost : ∀ r ∈ rows, mostSamples rows - r.samples = 0 := by
    intro r hr
    obtain ⟨x, hx, hmost⟩ := mostSamples_mem (List.ne_nil_of_mem hr)
    rw [hmost, hsamples x hx, hsamples r hr]
    exact Int.sub_self n
  constructor
  · intro d
    refine List.sum_le_sum ?_
    intro r hr
    have hlow := (h r hr).low d
    rw [hmost r hr]
    omega
  · intro d
    refine List.sum_le_sum ?_
    intro r hr
    have hhigh := (h r hr).high d
    rw [hmost r hr]
    omega

/-- Devices whose rates are not negative stay below the sum of their highs. -/
theorem weighed_high (h : ∀ r ∈ rows, Sound r) (hnonneg : ∀ r ∈ rows, ∀ d, 0 ≤ r.low d)
    (d : Direction) :
    (rows.map fun r => r.total d - r.high d * r.samples).sum ≤
      (rows.map fun r => r.high d * (mostSamples rows - r.samples)).sum := by
  refine List.sum_le_sum ?_
  intro r hr
  have hsamples := (h r hr).samples
  have hhigh : 0 ≤ r.high d := by
    by_contra hneg
    have hlow := Int.mul_nonneg (hnonneg r hr d) (by omega : 0 ≤ r.samples)
    have hprod : r.high d * r.samples < 0 := Int.mul_neg_of_neg_of_pos (by omega) (by omega)
    have hbelow := (h r hr).low d
    have habove := (h r hr).high d
    omega
  have hmore := Int.mul_nonneg hhigh (by have := le_mostSamples hr; omega :
    0 ≤ mostSamples rows - r.samples)
  have habove := (h r hr).high d
  omega

end Devices

section Store

variable {store : CandleStore}

theorem sound_rows (h : store.Sound) (series : Series) (daily : Bool) :
    ∀ r ∈ store.rows daily series, Sound r := by
  intro r hr
  cases series with
  | device id =>
      have hmem := (List.mem_filter.mp hr).1
      cases daily
      · exact h.minutes r (List.mem_append_left _ hmem)
      · exact h.days r (List.mem_append_left _ hmem)
  | server id =>
      have hmem := (List.mem_filter.mp hr).1
      cases daily
      · exact h.minutes r (List.mem_append_right _ hmem)
      · exact h.days r (List.mem_append_right _ hmem)
  | user id =>
      have hmem := (List.mem_filter.mp hr).1
      cases daily
      · exact h.minutes r (List.mem_append_left _ hmem)
      · exact h.days r (List.mem_append_left _ hmem)

/-- Sound bars make consistent candles. -/
theorem consistent_of_bars {series : Series}
    (h : ∀ tf before b,
      (dayCandle b series.id
        (series.bars (bucketRows tf before b (store.rows tf.usesDaily series)))).Bigint →
      ∀ bar ∈ series.bars (bucketRows tf before b (store.rows tf.usesDaily series)), Sound bar) :
    store.Consistent series := by
  intro plan tf before limit candles hok c hc d
  obtain ⟨hne, hcandle, hfits⟩ := candle_of_answer hok hc
  rw [ne_eq, ← bars_eq_nil series] at hne
  rw [hcandle]
  exact decode_consistent (sound_dayCandle hne (h tf before c.bucketStart hfits) _ _) d

/-- The rows of one period among those of a bucket. -/
theorem bucketRows_period {tf : Timeframe} {before : Option Int} {b : Int}
    {rows : List CandleRow} {x : CandleRow} (hx : x ∈ bucketRows tf before b rows) :
    (bucketRows tf before b rows).filter (fun r => r.bucketStart == x.bucketStart) =
      rows.filter fun r => r.bucketStart == x.bucketStart := by
  unfold bucketRows at hx ⊢
  rw [List.filter_filter]
  refine List.filter_congr ?_
  intro r _
  by_cases hr : r.bucketStart = x.bucketStart
  · have hin := (List.mem_filter.mp hx).2
    rw [hr]
    simp only [beq_self_eq_true, Bool.true_and]
    exact hin
  · simp [hr]

/-- The finest timeframe of a table. -/
def finest (daily : Bool) : Timeframe := if daily then .d1 else .m1

theorem finest_usesDaily (daily : Bool) : (finest daily).usesDaily = daily := by
  cases daily
  · rfl
  · rfl

/-- In the finest timeframe every period of a table is a bucket. -/
theorem finest_bucket (h : store.Sound) (daily : Bool) (user : Uuid) {r : CandleRow}
    (hr : r ∈ store.rows daily (.user user)) :
    (finest daily).bucket r.bucketStart = r.bucketStart := by
  cases daily with
  | true =>
      rfl
  | false =>
      have haligned := h.aligned r (List.mem_filter.mp hr).1
      change dateBin 1 r.bucketStart = r.bucketStart
      unfold dateBin binOrigin
      omega

/-- A consistent candle of one combined bar, whose sum is not negative. -/
theorem low_of_consistent {bar : CandleRow} {b : Int} {id : Uuid} {d : Direction}
    (hpos : 1 ≤ bar.samples) (htotal : 0 ≤ bar.total d)
    (h : (decodeCandle (dayCandle b id [bar])).low d ≤
      (decodeCandle (dayCandle b id [bar])).avg d) :
    bar.low d * bar.samples ≤ bar.total d := by
  have hmax : max bar.samples 1 = bar.samples := by omega
  have hdiv : bar.low d ≤ (bar.total d).tdiv bar.samples := by
    rw [← hmax]
    cases d
    · exact h
    · exact h
  rw [Int.tdiv_eq_ediv_of_nonneg htotal] at hdiv
  exact (Int.le_ediv_iff_mul_le (by omega)).mp hdiv

/-- The lows of the rows of a user are not negative. -/
theorem nonneg_rows (h : store.Nonneg) {user : Uuid} {daily : Bool} {r : CandleRow}
    (hr : r ∈ store.rows daily (.user user)) : ∀ d, 0 ≤ r.low d := by
  have hin := (List.mem_filter.mp hr).1
  cases daily
  · exact h r (List.mem_append_left _ hin)
  · exact h r (List.mem_append_right _ hin)

/-- Consistent candles of the finest timeframe have weighed devices. -/
theorem weighed_of_consistent (h : store.Sound) (hnonneg : store.Nonneg) {user : Uuid}
    (hconsistent : store.Consistent (.user user)) (daily : Bool) (t : Int)
    (hfits : (combineDevices user t
      ((store.rows daily (.user user)).filter fun r => r.bucketStart == t)).Bigint) :
    Weighed ((store.rows daily (.user user)).filter fun r => r.bucketStart == t) := by
  -- the candle of the period is the page of one before the next instant
  have hrows : bucketRows (finest daily) (some (t + 1)) t
      (store.rows (finest daily).usesDaily (.user user)) =
        (store.rows daily (.user user)).filter fun r => r.bucketStart == t := by
    unfold bucketRows
    rw [finest_usesDaily]
    refine List.filter_congr ?_
    intro r hr
    rw [finest_bucket h daily user hr]
    by_cases ht : r.bucketStart = t
    · simp [olderThan, ht]
    · simp [ht]
  generalize hperiod : (store.rows daily (.user user)).filter
    (fun r => r.bucketStart == t) = period at hrows hfits ⊢
  have hmem : ∀ r ∈ period, r ∈ store.rows daily (.user user) ∧ r.bucketStart = t := by
    intro r hr
    rw [← hperiod] at hr
    exact ⟨(List.mem_filter.mp hr).1, beq_iff_eq.mp (List.mem_filter.mp hr).2⟩
  have hsound : ∀ r ∈ period, Sound r := fun r hr => sound_rows h (.user user) _ r (hmem r hr).1
  have hlows : ∀ r ∈ period, ∀ d, 0 ≤ r.low d := fun r hr => nonneg_rows hnonneg (hmem r hr).1
  refine ⟨fun d => ?_, weighed_high hsound hlows⟩
  by_cases hne : period = []
  · rw [hne]
    exact Int.le_refl _
  · have hbars : (Series.user user).bars period = [combineDevices user t period] :=
      groupRows_singleton hne fun r hr => (hmem r hr).2
    have hpage : store.candles .page (.user user) (finest daily) (some (t + 1)) (some 1) =
        .ok [candleOf (.user user) t [combineDevices user t period]] := by
      have hlatest := @candlesOf_latest (.user user) (finest daily)
        (store.rows (finest daily).usesDaily (.user user)) (some (t + 1)) t
      rw [hrows, hbars] at hlatest
      refine hlatest hne ?_ hfits
      intro r hr holder
      rw [finest_usesDaily] at hr
      rw [finest_bucket h daily user hr]
      exact Int.lt_add_one_iff.mp (of_decide_eq_true holder)
    have htotal : 0 ≤ (combineDevices user t period).total d := by
      rw [(combine_figures user t period d).2.2]
      refine List.sum_nonneg ?_
      intro x hx
      obtain ⟨r, hr, rfl⟩ := List.mem_map.mp hx
      have hlow := Int.mul_nonneg (hlows r hr d)
        (by have := (hsound r hr).samples; omega : 0 ≤ r.samples)
      exact le_trans hlow ((hsound r hr).low d)
    obtain ⟨r, hr⟩ := List.exists_mem_of_ne_nil _ hne
    exact (weighed_low_iff user t period d).mpr (low_of_consistent
      (le_trans (hsound r hr).samples (le_mostSamples hr)) htotal
      (hconsistent .page (finest daily) (some (t + 1)) (some 1) _ hpage _
        List.mem_cons_self d).1)

/-- Candles of a user whose devices are weighed in every period that satisfies `P`, if the periods
of a candle satisfy it. -/
theorem consistent_of_weighed (h : store.Sound) {user : Uuid} {P : CandleRow → Prop}
    (hweighed : ∀ daily t,
      P (combineDevices user t ((store.rows daily (.user user)).filter (·.bucketStart == t))) →
        Weighed ((store.rows daily (.user user)).filter fun r => r.bucketStart == t))
    (hperiods : ∀ tf before b, (dayCandle b user
        (perPeriod user (bucketRows tf before b (store.rows tf.usesDaily (.user user))))).Bigint →
      ∀ bar ∈ perPeriod user (bucketRows tf before b (store.rows tf.usesDaily (.user user))),
        P bar) :
    store.Consistent (.user user) := by
  refine consistent_of_bars ?_
  intro tf before b hfits bar hbar
  have hbarP := hperiods tf before b hfits bar hbar
  obtain ⟨x, hx, rfl⟩ := mem_groupRows.mp hbar
  rw [bucketRows_period hx] at hbarP ⊢
  have hmem := (List.mem_filter.mp hx).1
  refine sound_combine ?_ ?_ (hweighed tf.usesDaily x.bucketStart hbarP) user x.bucketStart
  · exact List.ne_nil_of_mem (List.mem_filter.mpr ⟨hmem, beq_self_eq_true _⟩)
  · intro r hr
    exact sound_rows h (.user user) _ r (List.mem_filter.mp hr).1

/-- The periods of a candle are in range if rates are not negative. -/
theorem bigint_of_bucket (h : store.Sound) (hnonneg : store.Nonneg) {user : Uuid} {tf : Timeframe}
    {before : Option Int} {b : Int}
    (hfits : (dayCandle b user
      (perPeriod user (bucketRows tf before b (store.rows tf.usesDaily (.user user))))).Bigint) :
    ∀ bar ∈ perPeriod user (bucketRows tf before b (store.rows tf.usesDaily (.user user))),
      bar.Bigint := by
  have hsound := sound_rows h (.user user) tf.usesDaily
  have hlows : ∀ r ∈ store.rows tf.usesDaily (.user user), ∀ d, 0 ≤ r.low d :=
    fun r hr => nonneg_rows hnonneg hr
  refine bigint_of_dayCandle (fun bar hbar c => ?_) (fun bar hbar d => ?_) hfits
  · obtain ⟨x, hx, rfl⟩ := mem_groupRows.mp hbar
    refine value_combine_nonneg (fun r hr => ?_) c
    have hmem := (List.mem_filter.mp (List.mem_filter.mp hr).1).1
    exact (hsound r hmem).nonneg (hlows r hmem)
  · obtain ⟨x, hx, rfl⟩ := mem_groupRows.mp hbar
    obtain ⟨hlow, hhigh, _⟩ := combine_figures user x.bucketStart
      ((bucketRows tf before b (store.rows tf.usesDaily (.user user))).filter
        fun y => y.bucketStart == x.bucketStart) d
    rw [hlow, hhigh]
    refine List.sum_le_sum ?_
    intro r hr
    have hmem := (List.mem_filter.mp (List.mem_filter.mp hr).1).1
    exact (hsound r hmem).low_le_high d

/--
Candles of devices and servers are consistent.  Those of users are if the devices
are weighed in every minute and on every day.  If rates are not negative, they
are exactly if the devices are weighed wherever their combined figures are in
range.
-/
theorem candles_consistent_iff (store : CandleStore) (h : store.Sound) :
    (∀ id, store.Consistent (.device id) ∧ store.Consistent (.server id)) ∧
      (store.Weighed → ∀ user, store.Consistent (.user user)) ∧
      (store.Nonneg → ((∀ user, store.Consistent (.user user)) ↔ store.WeighedInRange)) := by
  refine ⟨fun id => ⟨?_, ?_⟩, ?_, fun hnonneg => ⟨?_, ?_⟩⟩
  · exact consistent_of_bars fun tf before b _ bar hbar =>
      sound_rows h (.device id) _ bar (List.mem_filter.mp hbar).1
  · exact consistent_of_bars fun tf before b _ bar hbar =>
      sound_rows h (.server id) _ bar (List.mem_filter.mp hbar).1
  · intro hweighed user
    exact @consistent_of_weighed store h user (fun _ => True)
      (fun daily t _ => hweighed user daily t) fun _ _ _ _ _ _ => trivial
  · intro hconsistent user daily t hfits
    exact weighed_of_consistent h hnonneg (hconsistent user) daily t hfits
  · intro hweighed user
    exact consistent_of_weighed h (hweighed user) fun _ _ _ hfits =>
      bigint_of_bucket h hnonneg hfits

/-- Devices that were both seen for a whole minute. -/
theorem candles_consistent_sample :
    (sampleStore [sampleCandle 20 0 8 60, sampleCandle 21 0 4 60]).Consistent (.user 1) := by
  have hsound : (sampleStore [sampleCandle 20 0 8 60, sampleCandle 21 0 4 60]).Sound :=
    ⟨by decide, by decide, by decide⟩
  refine (candles_consistent_iff _ hsound).2.1 ?_ 1
  intro user daily t
  refine @weighed_of_equal _ 60 (fun r hr => ?_) (fun r hr => ?_)
  · exact sound_rows hsound (.user user) daily r (List.mem_filter.mp hr).1
  · have hmem := (List.mem_filter.mp (List.mem_filter.mp hr).1).1
    cases daily
    · have hall : ∀ r ∈ [sampleCandle 20 0 8 60, sampleCandle 21 0 4 60], r.samples = 60 := by
        decide
      exact hall r hmem
    · cases hmem

/-- A device that was seen for one second adds its rate to the low of the minute, and a sixtieth
of it to the average. -/
theorem user_low_above_average :
    let store := sampleStore [{ sampleCandle 20 0 0 60 with rxHigh := 10, rxSum := 10 },
      sampleCandle 21 0 100 1]
    store.Sound ∧ store.Nonneg ∧
      store.candles .all (.user 1) .m1 none none =
        .ok [⟨1780272000 * 1000000, 110, 100, 1, 100, 100, 1⟩] ∧
      ¬ store.Consistent (.user 1) := by
  intro store
  have hcandles : store.candles .all (.user 1) .m1 none none =
      .ok [⟨1780272000 * 1000000, 110, 100, 1, 100, 100, 1⟩] := by decide
  refine ⟨⟨by decide, by decide, by decide⟩, ?_, hcandles, fun h => ?_⟩
  · intro r hr d
    have hall : ∀ r ∈ store.deviceMinutes ++ store.deviceDays, 0 ≤ r.rxLow ∧ 0 ≤ r.txLow := by
      decide
    cases d
    · exact (hall r hr).1
    · exact (hall r hr).2
  · have hlow := (h .all .m1 none none _ hcandles _ (List.mem_singleton.mpr rfl) .rx).1
    exact absurd hlow (by decide)

end Store

end Candles
end Db
end ZeroVpn
