import ZeroVpn.Web.LiveStats
import Mathlib.Tactic.Common

/-!
# The aggregate sparkline

What `applyDelta` keeps of the sums over all devices.  `frames` is the history without a
cap, each frame with the second for which it was opened; a call opens a frame if its
second is after that of the call before it, and otherwise replaces the last one.

`aggregate_frames_iff` says in which runs there is one frame for each second: a second
that is behind the one of the call before must have been seen, and one that is ahead of
it must be new.
-/

namespace ZeroVpn

open Library

namespace Web
namespace LiveStats

universe u

section Rates

variable {R : Type u} [AddCommMonoid R] {calls : List (Delta R)} {c : Delta R}

/-- A rate in the latest call for a device. -/
def latest (rate : Delta R → R) (calls : List (Delta R)) (id : String) : R :=
  (((calls.filter fun c => c.id = id).getLast?).map rate).getD 0

/-- The sum of the latest rates of all devices. -/
def totalOf (rate : Delta R → R) (calls : List (Delta R)) : R :=
  ∑ id ∈ (calls.map fun c => c.id).toFinset, latest rate calls id

theorem latest_concat_self (rate : Delta R → R) (calls : List (Delta R)) (c : Delta R) :
    latest rate (calls ++ [c]) c.id = rate c := by
  simp [latest]

theorem latest_concat_of_ne (rate : Delta R → R) (calls : List (Delta R)) {id : String}
    (h : c.id ≠ id) : latest rate (calls ++ [c]) id = latest rate calls id := by
  simp [latest, h]

theorem sumOf_eq_sum (rate : DeviceLive R → R) (devices : List (String × DeviceLive R)) :
    sumOf rate devices = (devices.map fun e => rate e.2).sum := by
  rw [sumOf, List.sum_eq_foldl, List.foldl_map]

/-- What the devices of the store are after the calls. -/
structure Devices (calls : List (Delta R)) (devices : List (String × DeviceLive R)) : Prop where
  nodup : (Records.keys devices).Nodup
  mem_keys : ∀ id, id ∈ Records.keys devices ↔ id ∈ calls.map fun c => c.id
  rxBps : ∀ id d, devices.lookup id = some d → d.rxBps = latest Delta.rxBps calls id
  txBps : ∀ id d, devices.lookup id = some d → d.txBps = latest Delta.txBps calls id

/-- The sums over the store are those over the calls. -/
theorem sumOf_eq_totalOf (rate : DeviceLive R → R) (rate' : Delta R → R)
    {devices : List (String × DeviceLive R)} (h : Devices calls devices)
    (hrate : ∀ id d, devices.lookup id = some d → rate d = latest rate' calls id) :
    sumOf rate devices = totalOf rate' calls := by
  have hkeys : (calls.map fun c => c.id).toFinset = (Records.keys devices).toFinset := by
    ext id
    rw [List.mem_toFinset, List.mem_toFinset, h.mem_keys]
  have hsum : (devices.map fun e => rate e.2) =
      (Records.keys devices).map (latest rate' calls) := by
    rw [Records.keys, List.map_map]
    refine List.map_congr_left fun e he => ?_
    exact hrate e.1 e.2 (Records.lookup_of_mem h.nodup he)
  rw [sumOf_eq_sum, hsum, totalOf, hkeys, List.sum_toFinset _ h.nodup]

theorem devices_received [LinearOrder R] (calls : List (Delta R)) : Devices calls (received calls).devices := by
  induction calls using List.reverseRecOn with
  | nil =>
      exact ⟨List.nodup_nil, fun id => Iff.rfl, fun id d h => (by cases h), fun id d h => (by cases h)⟩
  | append_singleton calls c ih =>
      rw [received_concat]
      refine ⟨Records.nodup_put ih.nodup _ _, fun id => ?_, fun id d h => ?_, fun id d h => ?_⟩
      · rw [applyDelta, Records.mem_keys_put, ih.mem_keys, List.map_append, List.mem_append,
          List.map_singleton, List.mem_singleton]
      · by_cases hid : c.id = id
        · subst hid
          cases (Records.lookup_put_self _ _ _).symm.trans h
          exact (latest_concat_self Delta.rxBps calls c).symm
        · rw [latest_concat_of_ne _ _ hid]
          exact ih.rxBps id d ((Records.lookup_put_of_ne (Ne.symm hid) _ _).symm.trans h)
      · by_cases hid : c.id = id
        · subst hid
          cases (Records.lookup_put_self _ _ _).symm.trans h
          exact (latest_concat_self Delta.txBps calls c).symm
        · rw [latest_concat_of_ne _ _ hid]
          exact ih.txBps id d ((Records.lookup_put_of_ne (Ne.symm hid) _ _).symm.trans h)

end Rates

section Frames

/-- A frame of the aggregate, and the second for which it was opened. -/
structure Frame (R : Type u) where
  second : Int
  rx : R
  tx : R
  deriving DecidableEq

/-- The sums of a frame in the place of another one. -/
def Frame.inPlaceOf {R : Type u} (next f : Frame R) : Frame R := { next with second := f.second }

variable {R : Type u} [AddCommMonoid R] {calls : List (Delta R)} {c prev : Delta R}

/-- The frames after a call, from those after the calls before it. -/
def addFrame (previous : Option (Delta R)) (frames : List (Frame R)) (next : Frame R) :
    List (Frame R) :=
  match previous, frames.getLast? with
  | some p, some f =>
      if p.second < next.second then frames ++ [next]
      else frames.dropLast ++ [next.inPlaceOf f]
  | _, _ => [next]

/-- The frame of the sums after the calls. -/
def frameOf (calls : List (Delta R)) (c : Delta R) : Frame R where
  second := c.second
  rx := totalOf Delta.rxBps calls
  tx := totalOf Delta.txBps calls

/-- The history of the aggregate without a cap. -/
def frames (calls : List (Delta R)) : List (Frame R) :=
  (calls.foldl
    (fun (s : List (Delta R) × List (Frame R)) c =>
      (s.1 ++ [c], addFrame s.1.getLast? s.2 (frameOf (s.1 ++ [c]) c)))
    ([], [])).2

theorem frames_concat (calls : List (Delta R)) (c : Delta R) :
    frames (calls ++ [c]) = addFrame calls.getLast? (frames calls) (frameOf (calls ++ [c]) c) := by
  have hseen : ∀ calls : List (Delta R),
      (calls.foldl
        (fun (s : List (Delta R) × List (Frame R)) c =>
          (s.1 ++ [c], addFrame s.1.getLast? s.2 (frameOf (s.1 ++ [c]) c)))
        ([], [])).1 = calls := by
    intro calls
    induction calls using List.reverseRecOn with
    | nil =>
        rfl
    | append_singleton calls c ih =>
        rw [List.foldl_append, List.foldl_cons, List.foldl_nil, ih]
  rw [frames, List.foldl_append, List.foldl_cons, List.foldl_nil, hseen, frames]

@[simp] theorem frames_nil : frames ([] : List (Delta R)) = [] := rfl

theorem frames_singleton (c : Delta R) : frames [c] = [frameOf [c] c] :=
  frames_concat [] c

theorem frames_ne_nil (h : calls ≠ []) : frames calls ≠ [] := by
  induction calls using List.reverseRecOn with
  | nil =>
      exact absurd rfl h
  | append_singleton calls c _ =>
      rw [frames_concat]
      unfold addFrame
      split
      · split
        · simp
        · simp
      · simp

/-- A call after another one opens a frame or replaces the last. -/
theorem exists_frames_concat (calls : List (Delta R)) (prev c : Delta R) :
    ∃ fs f, frames (calls ++ [prev]) = fs ++ [f] ∧
      frames (calls ++ [prev] ++ [c]) =
        if prev.second < c.second then fs ++ [f] ++ [frameOf (calls ++ [prev] ++ [c]) c]
        else fs ++ [(frameOf (calls ++ [prev] ++ [c]) c).inPlaceOf f] := by
  rcases List.eq_nil_or_concat' (frames (calls ++ [prev])) with hnil | ⟨fs, f, hfs⟩
  · exact absurd hnil (frames_ne_nil (by simp))
  · refine ⟨fs, f, hfs, ?_⟩
    simp only [frames_concat (calls ++ [prev]), hfs, List.getLast?_concat, addFrame,
      List.dropLast_concat, frameOf]

theorem getLast?_frames (calls : List (Delta R)) (c : Delta R) :
    ∃ f, (frames (calls ++ [c])).getLast? = some ((frameOf (calls ++ [c]) c).inPlaceOf f) := by
  rcases List.eq_nil_or_concat' calls with rfl | ⟨calls, prev, rfl⟩
  · exact ⟨frameOf [c] c, by rw [List.nil_append, frames_singleton]; rfl⟩
  · obtain ⟨fs, f, _, hnext⟩ := exists_frames_concat calls prev c
    rw [hnext]
    split
    · exact ⟨frameOf (calls ++ [prev] ++ [c]) c, by rw [List.getLast?_concat]; rfl⟩
    · exact ⟨f, List.getLast?_concat⟩

/-- The seconds of the frames. -/
theorem seconds_concat (calls : List (Delta R)) (prev c : Delta R) :
    (frames (calls ++ [prev] ++ [c])).map Frame.second =
      if prev.second < c.second then
        (frames (calls ++ [prev])).map Frame.second ++ [c.second]
      else (frames (calls ++ [prev])).map Frame.second := by
  obtain ⟨fs, f, hlast, hnext⟩ := exists_frames_concat calls prev c
  rw [hnext, hlast]
  split
  · simp [frameOf]
  · simp [Frame.inPlaceOf]

/-- One history of the aggregate after a call. -/
theorem history_concat (value : Frame R → R)
    (hvalue : ∀ next f : Frame R, value (next.inPlaceOf f) = value next) {history : List R}
    (h : history = newest HISTORY_CAP ((frames (calls ++ [prev])).map value)) :
    (if prev.second < c.second then
        pushCapped history (value (frameOf (calls ++ [prev] ++ [c]) c)) HISTORY_CAP
      else replaceLastCapped history (value (frameOf (calls ++ [prev] ++ [c]) c))) =
      newest HISTORY_CAP ((frames (calls ++ [prev] ++ [c])).map value) := by
  obtain ⟨fs, f, hlast, hnext⟩ := exists_frames_concat calls prev c
  rw [hnext, h, hlast]
  split
  · simp only [List.map_append, List.map_cons, List.map_nil]
    exact (newest_concat (by decide) (fs.map value ++ [value f]) _).symm
  · simp only [List.map_append, List.map_cons, List.map_nil, hvalue]
    exact (newest_replace (fs.map value) (value f) _).symm

theorem history_singleton (value : Frame R → R) (p : Prop) [Decidable p] :
    (if p then pushCapped [] (value (frameOf [c] c)) HISTORY_CAP
      else replaceLastCapped [] (value (frameOf [c] c))) =
      newest HISTORY_CAP ((frames [c]).map value) := by
  rw [frames_singleton, List.map_singleton, newest_of_le (by simp [HISTORY_CAP])]
  split
  · exact if_pos (show 0 < HISTORY_CAP by decide)
  · exact if_pos rfl

theorem last_value (value : Frame R → R) (hvalue : ∀ next f : Frame R,
    value (next.inPlaceOf f) = value next) (h : calls ≠ []) :
    ∃ c, (newest HISTORY_CAP ((frames calls).map value)).getLast? =
      some (value (frameOf calls c)) := by
  rcases List.eq_nil_or_concat' calls with rfl | ⟨calls, c, rfl⟩
  · exact absurd rfl h
  · obtain ⟨f, hf⟩ := getLast?_frames calls c
    refine ⟨c, ?_⟩
    rw [getLast?_newest (by decide), List.getLast?_map, hf, Option.map_some, hvalue]

end Frames

section Charts

variable {R : Type u} [AddCommMonoid R] [LinearOrder R] {calls before : List (Delta R)}
  {c : Delta R}

/-- The aggregate holds the newest frames. -/
structure Shows (calls : List (Delta R)) (aggregate : AggregateLive R) : Prop where
  rxHistory : aggregate.rxHistory = newest HISTORY_CAP ((frames calls).map Frame.rx)
  txHistory : aggregate.txHistory = newest HISTORY_CAP ((frames calls).map Frame.tx)
  bucket : ∀ prev ∈ calls.getLast?, aggregate.lastBucketSec = prev.second

theorem shows_received (calls : List (Delta R)) : Shows calls (received calls).aggregate := by
  induction calls using List.reverseRecOn with
  | nil =>
      have hnil : ∀ value : Frame R → R,
          [] = newest HISTORY_CAP ((frames ([] : List (Delta R))).map value) :=
        fun value => (newest_of_le (Nat.zero_le HISTORY_CAP)).symm
      exact ⟨hnil Frame.rx, hnil Frame.tx, fun _ h => (by cases h)⟩
  | append_singleton calls c ih =>
      have hdevices := devices_received (calls ++ [c])
      rw [received_concat] at hdevices ⊢
      have hrx := sumOf_eq_totalOf _ _ hdevices hdevices.rxBps
      have htx := sumOf_eq_totalOf _ _ hdevices hdevices.txBps
      rcases List.eq_nil_or_concat' calls with rfl | ⟨calls, prev, rfl⟩
      · -- on the empty store both ways give a history of one frame
        simp only [applyDelta] at hrx htx ⊢
        simp only [aggregateAfter, hrx, htx]
        refine ⟨?_, ?_, ?_⟩
        · exact history_singleton Frame.rx _
        · exact history_singleton Frame.tx _
        · intro last hlast
          cases hlast
          rfl
      · have hbucket := ih.bucket prev (by simp)
        simp only [applyDelta] at hrx htx ⊢
        simp only [aggregateAfter, hrx, htx, hbucket]
        refine ⟨?_, ?_, ?_⟩
        · exact history_concat Frame.rx (fun _ _ => rfl) ih.rxHistory
        · exact history_concat Frame.tx (fun _ _ => rfl) ih.txHistory
        · intro last hlast
          rw [List.getLast?_concat] at hlast
          cases hlast
          rfl

/-- What the aggregate is said to hold: one frame for each second seen, and in the last
one the sums of the latest rates. -/
structure OneFramePerSecond (calls : List (Delta R)) : Prop where
  rxHistory : (received calls).aggregate.rxHistory =
    newest HISTORY_CAP ((frames calls).map Frame.rx)
  txHistory : (received calls).aggregate.txHistory =
    newest HISTORY_CAP ((frames calls).map Frame.tx)
  same_length : (received calls).aggregate.rxHistory.length =
    (received calls).aggregate.txHistory.length
  once : ((frames calls).map Frame.second).Nodup
  seen : ∀ s, s ∈ (frames calls).map Frame.second ↔ s ∈ calls.map Delta.second
  last_rx : calls ≠ [] →
    (received calls).aggregate.rxHistory.getLast? = some (totalOf Delta.rxBps calls)
  last_tx : calls ≠ [] →
    (received calls).aggregate.txHistory.getLast? = some (totalOf Delta.txBps calls)

/-- A call is in step if its second is ahead of that of the call before exactly when it
was not seen before. -/
def InStep (before : List (Delta R)) (c : Delta R) : Prop :=
  ∀ prev ∈ before.getLast?, prev.second < c.second ↔ c.second ∉ before.map Delta.second

/-- All but the seconds holds in every run. -/
theorem oneFramePerSecond_iff (calls : List (Delta R)) :
    OneFramePerSecond calls ↔
      ((frames calls).map Frame.second).Nodup ∧
        ∀ s, s ∈ (frames calls).map Frame.second ↔ s ∈ calls.map Delta.second := by
  have hshows := shows_received calls
  constructor
  · intro h
    exact ⟨h.once, h.seen⟩
  · rintro ⟨honce, hseen⟩
    refine ⟨hshows.rxHistory, hshows.txHistory, ?_, honce, hseen, ?_, ?_⟩
    · rw [hshows.rxHistory, hshows.txHistory, length_newest, length_newest, List.length_map,
        List.length_map]
    · intro hne
      obtain ⟨c, hc⟩ := last_value Frame.rx (fun _ _ => rfl) hne
      rw [hshows.rxHistory, hc]
      rfl
    · intro hne
      obtain ⟨c, hc⟩ := last_value Frame.tx (fun _ _ => rfl) hne
      rw [hshows.txHistory, hc]
      rfl

/-- One more call keeps the seconds apart if and only if it is in step. -/
theorem oneFramePerSecond_concat (h : OneFramePerSecond before) (c : Delta R) :
    OneFramePerSecond (before ++ [c]) ↔ InStep before c := by
  rw [oneFramePerSecond_iff] at h ⊢
  obtain ⟨honce, hseen⟩ := h
  rcases List.eq_nil_or_concat' before with rfl | ⟨before, prev, rfl⟩
  · refine iff_of_true ⟨?_, ?_⟩ (fun _ h => (by cases h))
    · rw [List.nil_append, frames_singleton]
      exact List.nodup_singleton _
    · intro s
      rw [List.nil_append, frames_singleton]
      rfl
  · have hstep : InStep (before ++ [prev]) c ↔
        (prev.second < c.second ↔ c.second ∉ (before ++ [prev]).map Delta.second) := by
      simp [InStep]
    rw [hstep, seconds_concat, ← hseen]
    have hmem : ∀ s, s ∈ (before ++ [prev] ++ [c]).map Delta.second ↔
        s ∈ (frames (before ++ [prev])).map Frame.second ∨ s = c.second := by
      intro s
      rw [List.map_append, List.mem_append, ← hseen, List.map_singleton, List.mem_singleton]
    by_cases hlater : prev.second < c.second
    · rw [if_pos hlater, List.nodup_append_comm, List.singleton_append, List.nodup_cons]
      constructor
      · rintro ⟨⟨hnew, _⟩, _⟩
        exact iff_of_true hlater hnew
      · intro hiff
        refine ⟨⟨hiff.mp hlater, honce⟩, fun s => ?_⟩
        rw [hmem, List.mem_append, List.mem_singleton]
    · rw [if_neg hlater]
      constructor
      · rintro ⟨_, hall⟩
        exact iff_of_false hlater (not_not_intro ((hall c.second).mpr ((hmem _).mpr (Or.inr rfl))))
      · intro hiff
        have hold : c.second ∈ (frames (before ++ [prev])).map Frame.second := by
          by_contra hnew
          exact hlater (hiff.mpr hnew)
        refine ⟨honce, fun s => ?_⟩
        rw [hmem]
        constructor
        · exact Or.inl
        · rintro (hs | rfl)
          · exact hs
          · exact hold

/-- In every state of a run there is one frame for each second seen so far, if and only
if every call of the run is in step. -/
theorem aggregate_frames_iff (calls : List (Delta R)) :
    (∀ before, before <+: calls → OneFramePerSecond before) ↔
      ∀ before c, before ++ [c] <+: calls → InStep before c := by
  constructor
  · intro h before c hprefix
    have hbefore := h before ((List.prefix_append before [c]).trans hprefix)
    exact (oneFramePerSecond_concat hbefore c).mp (h _ hprefix)
  · intro h before hprefix
    induction before using List.reverseRecOn with
    | nil =>
        rw [oneFramePerSecond_iff]
        exact ⟨List.nodup_nil, fun s => Iff.rfl⟩
    | append_singleton before c ih =>
        have hbefore := ih ((List.prefix_append before [c]).trans hprefix)
        exact (oneFramePerSecond_concat hbefore c).mpr (h before c hprefix)

/-- Two devices around a second boundary, one of them late. -/
def lateTicks : List (Delta Int) :=
  [tick "a" 5 10900, tick "b" 7 11000, tick "a" 6 10950, tick "b" 8 11200]

/-- Two seconds, and three frames. -/
theorem late_tick_doubles_second :
    (received lateTicks).aggregate.rxHistory = [5, 13, 14] ∧
      lateTicks.map Delta.second = [10, 11, 10, 11] ∧ ¬ OneFramePerSecond lateTicks :=
  ⟨by decide, by decide, fun h => absurd h.once (by decide)⟩

end Charts

end LiveStats
end Web
end ZeroVpn
