import ZeroVpn.Db.CandleConsistency
import ZeroVpn.Worker.CandleFold

/-!
# The rows that the worker writes

Every state that flushes, roll-ups and prunes reach has sound candle tables: the
sum of each row lies between its low and its high for all its samples, and minute
rows start at a minute.  This is what the read side relies on.

The rates of a minute have to add up to an `i64`; the sum of a bar wraps
otherwise.
-/

namespace ZeroVpn

open Library Db Db.Candles

namespace Worker
namespace CandleHistory

open CandleFold (barRow toTimestamp_floorMinute)

/-- The tables of the state, with the devices' users. -/
def State.store (s : State) (owner : Uuid → Option Uuid) : CandleStore where
  deviceMinutes := s.devices.minutes
  deviceDays := s.devices.daily
  serverMinutes := s.servers.minutes
  serverDays := s.servers.daily
  owner := owner

/-- A sound row of a minute. -/
def OfMinute (r : CandleRow) : Prop := Sound r ∧ r.bucketStart % 60000000 = 0

structure Table.Sound (t : Table) : Prop where
  minutes : ∀ r ∈ t.minutes, OfMinute r
  daily : ∀ r ∈ t.daily, Candles.Sound r
  storable : ∀ r ∈ t.minutes ++ t.daily, r.Storable

/-- The rates of every id of a flush add up to an `i64`. -/
def FlushFits (_ : State) : Event → Prop
  | .flush _ _ rates => ∀ entry ∈ rates,
      inI64 (entry.2.rates.map Prod.fst).sum ∧ inI64 (entry.2.rates.map Prod.snd).sum
  | _ => True

instance (s : State) : (e : Event) → Decidable (FlushFits s e)
  | .flush _ _ _ => inferInstanceAs (Decidable (∀ entry ∈ _, _ ∧ _))
  | .wait _ | .tick | .statement _ | .prune .. | .restart => isTrue trivial

section Bars

/-- A tick as a row of its own. -/
def rateRow (id : Uuid) (minute : Int) (rate : Int × Int) : CandleRow :=
  ⟨id, minute, rate.1, rate.1, rate.1, rate.2, rate.2, rate.2, 1⟩

theorem sound_rateRow (id : Uuid) (minute : Int) (rate : Int × Int) :
    Sound (rateRow id minute rate) := by
  constructor
  · exact Int.le_refl 1
  · intro d
    cases d
    · simp [rateRow, CandleRow.low, CandleRow.total]
    · simp [rateRow, CandleRow.low, CandleRow.total]
  · intro d
    cases d
    · simp [rateRow, CandleRow.high, CandleRow.total]
    · simp [rateRow, CandleRow.high, CandleRow.total]

/-- The bar with the sums that it would have without wrapping. -/
def exactBar (rates : List (Int × Int)) : Bar :=
  { barOf rates with
    rxSum := (rates.map Prod.fst).sum
    txSum := (rates.map Prod.snd).sum }

theorem barOf_append (rates : List (Int × Int)) (rate : Int × Int) :
    barOf (rates ++ [rate]) = (barOf rates).observe rate.1 rate.2 := by
  unfold barOf
  rw [List.foldl_append]
  rfl

/-- The sums of a bar, wrapped once. -/
theorem barOf_sums (rates : List (Int × Int)) :
    (barOf rates).rxSum = toI64 (rates.map Prod.fst).sum ∧
      (barOf rates).txSum = toI64 (rates.map Prod.snd).sum := by
  induction rates using List.reverseRecOn with
  | nil =>
      decide
  | append_singleton rates rate ih =>
      rw [barOf_append]
      simp only [Bar.observe, ih.1, ih.2, List.map_append, List.map_singleton, List.sum_append,
        List.sum_singleton]
      exact ⟨Int.bmod_add_bmod, Int.bmod_add_bmod⟩

/-- A bar whose sums did not wrap is sound. -/
theorem sound_exactBar (id : Uuid) (minute : Int) {rates : List (Int × Int)} (hne : rates ≠ [])
    (hfew : rates.length < 2 ^ 31) : Sound (barRow minute (id, exactBar rates)) := by
  induction rates using List.reverseRecOn with
  | nil =>
      exact absurd rfl hne
  | append_singleton rates rate ih =>
      rw [List.length_append, List.length_singleton] at hfew
      have hcount : (barOf rates).samples = rates.length := barOf_samples (by omega)
      have hnext : toI32 ((barOf rates).samples + 1) = (barOf rates).samples + 1 :=
        toI32_eq (by omega) (by omega)
      by_cases hfirst : rates = []
      · subst hfirst
        have hrow : barRow minute (id, exactBar [rate]) = rateRow id minute rate := by
          have hone : toI32 1 = 1 := by decide
          simp [barRow, exactBar, barOf, Bar.observe, Bar.empty, rateRow, hone]
        rw [List.nil_append, hrow]
        exact sound_rateRow id minute rate
      · -- one more tick is merged into the bar
        have hpos := List.length_pos_iff.mpr hfirst
        have hsome : (barOf rates).samples ≠ 0 := by omega
        have hmerge : barRow minute (id, exactBar (rates ++ [rate])) =
            (rateRow id minute rate).merge (barRow minute (id, exactBar rates)) := by
          unfold exactBar
          rw [barOf_append]
          simp only [barRow, Bar.observe, CandleRow.merge, rateRow, hsome, if_false, hnext,
            List.map_append, List.map_singleton, List.sum_append, List.sum_singleton]
        rw [hmerge]
        exact sound_merge (ih hfirst (by omega)) (sound_rateRow id minute rate)

/-- Flushed rows are sound rows of their minute. -/
theorem sound_flushRows (minute : Int) {rates : List (Uuid × Ticks)}
    (hfits : ∀ entry ∈ rates,
      inI64 (entry.2.rates.map Prod.fst).sum ∧ inI64 (entry.2.rates.map Prod.snd).sum) :
    ∀ r ∈ flushRows minute rates, OfMinute r := by
  intro r hr
  unfold flushRows drainBars at hr
  obtain ⟨entry, hentry, rfl⟩ := List.mem_map.mp hr
  obtain ⟨hmem, htraffic⟩ := List.mem_filter.mp hentry
  obtain ⟨⟨id, ticks⟩, hticks, rfl⟩ := List.mem_map.mp hmem
  obtain ⟨hrx, htx⟩ := hfits _ hticks
  constructor
  · have hne : ticks.rates ≠ [] := by
      intro hnil
      have hidle : (barOf []).hasTraffic = false := by decide
      change (barOf ticks.rates).hasTraffic = true at htraffic
      rw [hnil, hidle] at htraffic
      cases htraffic
    have hexact : barOf ticks.rates = exactBar ticks.rates := by
      obtain ⟨hrxSum, htxSum⟩ := barOf_sums ticks.rates
      rw [toI64_eq hrx] at hrxSum
      rw [toI64_eq htx] at htxSum
      unfold exactBar
      rw [← hrxSum, ← htxSum]
    change Sound (barRow (toTimestamp (floorMinute minute)) (id, barOf ticks.rates))
    rw [hexact]
    exact sound_exactBar id _ hne ticks.few
  · change toTimestamp (floorMinute minute) % 60000000 = 0
    rw [toTimestamp_floorMinute]
    omega

end Bars

section Run

theorem Table.Sound.flush {t : Table} (h : t.Sound) {rows : List CandleRow}
    (hrows : ∀ r ∈ rows, OfMinute r) : (t.flush rows).Sound := by
  refine forall_flush h fun hok => ?_
  constructor
  case minutes =>
    exact forall_mergeRows (fun _ _ hr hr' => ⟨sound_merge hr.1 hr'.1, hr.2⟩) hrows h.minutes
  case daily =>
    exact h.daily
  case storable =>
    intro r hr
    rcases List.mem_append.mp hr with hr | hr
    · exact storable_insert1m (fun x hx => h.storable x (List.mem_append_left _ hx)) hok r hr
    · exact h.storable r (List.mem_append_right _ hr)

theorem Table.Sound.rollup {t : Table} (h : t.Sound) (now dayStart dayEnd : Int) :
    (t.rollup now dayStart dayEnd).Sound := by
  rcases rollup_cases t now dayStart dayEnd with ⟨daily, hok, heq⟩ | ⟨_, heq⟩
  · rw [heq]
    constructor
    case minutes =>
      exact h.minutes
    case daily =>
      exact sound_rollupDaily (fun r hr => (h.minutes r hr).1) h.daily hok
    case storable =>
      intro r hr
      rcases List.mem_append.mp hr with hr | hr
      · exact h.storable r (List.mem_append_left _ hr)
      · exact storable_rollupDaily (fun x hx => h.storable x (List.mem_append_right _ hx)) hok r hr
  · rw [heq]
    exact h

theorem Table.Sound.pruneMinutes {t : Table} (h : t.Sound) (cut : Int) :
    (t.pruneMinutes cut).Sound where
  minutes r hr := h.minutes r (List.mem_filter.mp hr).1
  daily := h.daily
  storable := by
    intro r hr
    rcases List.mem_append.mp hr with hr | hr
    · exact h.storable r (List.mem_append_left _ (List.mem_filter.mp hr).1)
    · exact h.storable r (List.mem_append_right _ hr)

theorem Table.Sound.pruneDaily {t : Table} (h : t.Sound) (cut : Int) :
    (t.pruneDaily cut).Sound where
  minutes := h.minutes
  daily r hr := h.daily r (List.mem_filter.mp hr).1
  storable := by
    intro r hr
    rcases List.mem_append.mp hr with hr | hr
    · exact h.storable r (List.mem_append_left _ hr)
    · exact h.storable r (List.mem_append_right _ (List.mem_filter.mp hr).1)

/-- Every event keeps the tables sound. -/
theorem sound_step (s : State) (e : Event) (h : ∀ scope, (s.table scope).Sound)
    (hfits : FlushFits s e) :
    ∀ scope, ((step s e).table scope).Sound := by
  cases e with
  | wait elapsed =>
      intro scope
      rw [table_congr rfl rfl scope]
      exact h scope
  | flush scope minute rates =>
      exact forall_update h ((h scope).flush (sound_flushRows minute hfits))
  | tick =>
      intro scope
      rw [table_congr rfl rfl scope]
      exact h scope
  | statement ok =>
      simp only [step, State.statement]
      split
      · rename_i q rest hpass
        have hrollup : ∀ scope, ((s.rollup q).table scope).Sound := by
          cases q with
          | hourly start =>
              exact h
          | daily start =>
              exact h
          | deviceCandles dayStart dayEnd =>
              exact forall_update h ((h .device).rollup _ dayStart dayEnd)
          | serverCandles dayStart dayEnd =>
              exact forall_update h ((h .server).rollup _ dayStart dayEnd)
        have htables : ∀ scope, ((if ok then s.rollup q else s).table scope).Sound := by
          split
          · exact hrollup
          · exact h
        intro scope
        cases scope
        · exact htables .device
        · exact htables .server
      · exact h
  | prune minuteDays dailyDays delay done =>
      exact forall_updates _ (prune_statements (fun _ cut ht => ht.pruneMinutes cut)
        (fun _ cut ht => ht.pruneDaily cut) _ _ done) h
  | restart =>
      intro scope
      rw [table_congr rfl rfl scope]
      exact h scope

/-- Every run whose bars do not wrap leaves sound tables behind, with figures in range. -/
theorem tables_sound (now : Int) (es : List Event) (owner : Uuid → Option Uuid)
    (hfits : Along step FlushFits (start now) es) :
    ((runEvents step (start now) es).store owner).Sound ∧
      ∀ scope, ∀ r ∈ ((runEvents step (start now) es).table scope).minutes ++
        ((runEvents step (start now) es).table scope).daily, r.Storable := by
  have hempty : emptyTable.Sound :=
    ⟨fun r hr => (by cases hr), fun r hr => (by cases hr), fun r hr => (by cases hr)⟩
  have hstart : ∀ scope, ((start now).table scope).Sound := by
    intro scope
    cases scope
    · exact hempty
    · exact hempty
  have hrun := (always_of_along (fun s : State => ∀ scope, (s.table scope).Sound) sound_step
    (fun _ h => h) hstart hfits).last
  refine ⟨?_, fun scope => (hrun scope).storable⟩
  constructor
  case minutes =>
    intro r hr
    rcases List.mem_append.mp hr with hr | hr
    · exact ((hrun .device).minutes r hr).1
    · exact ((hrun .server).minutes r hr).1
  case days =>
    intro r hr
    rcases List.mem_append.mp hr with hr | hr
    · exact (hrun .device).daily r hr
    · exact (hrun .server).daily r hr
  case aligned =>
    intro r hr
    exact ((hrun .device).minutes r hr).2

/-- Two active minutes, of which one is pruned, and two roll-ups of their day. -/
theorem tables_sound_sample :
    let s := runEvents step (start (1780272060 * 1000000000)) sampleRun
    s.devices.minutes ≠ [] ∧ s.devices.daily ≠ [] ∧ (s.store fun _ => some 1).Sound := by
  intro s
  exact ⟨by decide, by decide,
    (tables_sound (1780272060 * 1000000000) sampleRun (fun _ => some 1) (by decide)).1⟩

/-- Two ticks of 2^62 bits per second leave a row whose sum is below its low. -/
theorem wrapped_row_is_unsound :
    let s := runEvents step (start 0)
      [.flush .device 0 [(20, ⟨[(2 ^ 62, 1), (2 ^ 62, 1)], by decide⟩)]]
    s.devices.minutes = [⟨20, 0, 2 ^ 62, 2 ^ 62, -2 ^ 63, 1, 1, 2, 2⟩] ∧
      ¬ (s.store fun _ => some 1).Sound := by
  intro s
  have hrows : s.devices.minutes = [⟨20, 0, 2 ^ 62, 2 ^ 62, -2 ^ 63, 1, 1, 2, 2⟩] := by
    decide
  refine ⟨hrows, fun h => ?_⟩
  have hrow := h.minutes ⟨20, 0, 2 ^ 62, 2 ^ 62, -2 ^ 63, 1, 1, 2, 2⟩
    (List.mem_append_left _ (hrows ▸ List.mem_singleton.mpr rfl))
  exact absurd (hrow.low .rx) (by decide)

end Run

end CandleHistory
end Worker
end ZeroVpn
