import ZeroVpn.Web.LiveStats
import Mathlib.Tactic.Common

/-!
# Fetched histories and live frames

`hydrateDevice` puts a fetched history in front of the live frames that are newer than
its last point.  The code keeps no times for the frames, and of the newer ones only the
latest.

`hydrate_history_iff` says when nothing is lost by that: when no newer frame is
overtaken by another one, or when the points are so many, and end in such rates, that
the difference does not show.
-/

namespace ZeroVpn

open Library

namespace Web
namespace LiveStats

universe u

section Slots

variable {R : Type u} [AddCommMonoid R] [LinearOrder R] {calls : List (Delta R)}

/-- The slot of a device, an empty one if there is none. -/
def slot (state : LiveStatsState R) (id : String) : DeviceLive R :=
  (state.devices.lookup id).getD empty

/-- The frames of a device. -/
def own (id : String) (calls : List (Delta R)) : List (Delta R) :=
  calls.filter fun c => c.id = id

/-- What the slot of a device holds of its frames. -/
structure Slot (frames : List (Delta R)) (d : DeviceLive R) : Prop where
  rxHistory : d.rxHistory = newest HISTORY_CAP (frames.map Delta.rxBps)
  rxBps : ∀ c ∈ frames.getLast?, d.rxBps = c.rxBps
  txBps : ∀ c ∈ frames.getLast?, d.txBps = c.txBps
  lastTs : d.lastTs = (frames.getLast?.map Delta.atMs).getD 0

theorem slot_received (id : String) (calls : List (Delta R)) :
    Slot (own id calls) (slot (received calls) id) := by
  induction calls using List.reverseRecOn with
  | nil =>
      exact ⟨(newest_of_le (Nat.zero_le HISTORY_CAP)).symm, fun _ h => (by cases h),
        fun _ h => (by cases h), rfl⟩
  | append_singleton calls c ih =>
      rw [received_concat]
      by_cases hid : c.id = id
      · subst hid
        have hown : own c.id (calls ++ [c]) = own c.id calls ++ [c] := by simp [own]
        have hslot : slot (applyDelta (received calls) c) c.id =
            deviceAfter (slot (received calls) c.id) c := by
          rw [slot, applyDelta]
          dsimp only
          rw [Records.lookup_put_self]
          rfl
        rw [hown, hslot]
        refine ⟨?_, ?_, ?_, ?_⟩
        · rw [List.map_append, List.map_singleton, newest_concat (by decide), ← ih.rxHistory]
          rfl
        · intro last hlast
          rw [List.getLast?_concat] at hlast
          cases hlast
          rfl
        · intro last hlast
          rw [List.getLast?_concat] at hlast
          cases hlast
          rfl
        · rw [List.getLast?_concat]
          rfl
      · have hown : own id (calls ++ [c]) = own id calls := by simp [own, hid]
        have hslot : slot (applyDelta (received calls) c) id = slot (received calls) id := by
          rw [slot, applyDelta]
          dsimp only
          rw [Records.lookup_put_of_ne (Ne.symm hid)]
          rfl
        rw [hown, hslot]
        exact ih

end Slots

section Frames

variable {R : Type u} {points : List (HistoricalPoint R)} {frames : List (Delta R)}

/-- The frames that are newer than the last point. -/
def newer (points : List (HistoricalPoint R)) (frames : List (Delta R)) : List (Delta R) :=
  frames.filter fun c => decide (∀ p ∈ points.getLast?, p.ts < c.atMs)

/-- The live frame that the code keeps. -/
def kept (points : List (HistoricalPoint R)) (frames : List (Delta R)) : List (Delta R) :=
  frames.getLast?.toList.filter fun c => decide (lastHistTs points < c.atMs ∧ 0 < c.atMs)

/-- The newer frames that it does not keep: all but the last one, and that one as well
if it is not after the epoch. -/
def overtaken (points : List (HistoricalPoint R)) (frames : List (Delta R)) : List (Delta R) :=
  (newer points frames).dropLast ++
    (newer points frames).getLast?.toList.filter fun c => decide (c.atMs ≤ 0)

theorem length_kept (points : List (HistoricalPoint R)) (frames : List (Delta R)) :
    (kept points frames).length ≤ 1 := by
  refine (List.length_filter_le _ _).trans ?_
  cases frames.getLast? with
  | none =>
      simp
  | some c =>
      simp

/-- If the last frame is newer, the code keeps it when it is after the epoch. -/
theorem newer_eq_of_last {c : Delta R} (hlast : ∀ p ∈ points.getLast?, p.ts < c.atMs) :
    newer points (frames ++ [c]) =
      overtaken points (frames ++ [c]) ++ kept points (frames ++ [c]) := by
  have hsplit : newer points (frames ++ [c]) = newer points frames ++ [c] := by
    rw [newer, List.filter_append, List.filter_cons_of_pos (by simpa using hlast)]
    rfl
  rw [overtaken, kept, hsplit, List.dropLast_concat, List.getLast?_concat, List.getLast?_concat]
  by_cases hepoch : 0 < c.atMs
  · have hhist : lastHistTs points < c.atMs := by
      unfold lastHistTs
      cases hp : points.getLast? with
      | none =>
          exact hepoch
      | some p =>
          exact hlast p hp
    have hpos : ¬ c.atMs ≤ 0 := by omega
    simp [hhist, hepoch]
  · have hneg : c.atMs ≤ 0 := by omega
    simp [hepoch, hneg]

/-- If the last frame is not newer, none is. -/
theorem newer_eq_nil {c : Delta R} {p : HistoricalPoint R}
    (h : (frames ++ [c]).Pairwise fun c c' => c.atMs < c'.atMs)
    (hp : points.getLast? = some p) (hlast : c.atMs ≤ p.ts) :
    newer points (frames ++ [c]) = [] := by
  have hle : ∀ c' ∈ frames ++ [c], c'.atMs ≤ c.atMs := by
    intro c' hc'
    rcases List.mem_append.mp hc' with hbefore | hself
    · exact ((List.pairwise_append.mp h).2.2 c' hbefore c (List.mem_singleton_self c)).le
    · rw [List.mem_singleton.mp hself]
  refine List.filter_eq_nil_iff.mpr fun c' hc' hnew => ?_
  have hts := of_decide_eq_true hnew p hp
  have hle' := hle c' hc'
  omega

/-- Frames in the order of time. -/
theorem newer_eq (h : frames.Pairwise fun c c' => c.atMs < c'.atMs) :
    newer points frames = overtaken points frames ++ kept points frames := by
  rcases List.eq_nil_or_concat' frames with rfl | ⟨frames, c, rfl⟩
  · rfl
  · by_cases hlast : ∀ p ∈ points.getLast?, p.ts < c.atMs
    · exact newer_eq_of_last hlast
    · push Not at hlast
      obtain ⟨p, hp, hold⟩ := hlast
      have hnil := newer_eq_nil h hp hold
      have hhist : lastHistTs points = p.ts := by
        rw [lastHistTs, hp]
        rfl
      have hkept : kept points (frames ++ [c]) = [] := by
        rw [kept, List.getLast?_concat, hhist]
        simp [hold]
      rw [overtaken, hnil, hkept]
      rfl

end Frames

section Hydration

variable {R : Type u} {points : List (HistoricalPoint R)} {frames : List (Delta R)}
  {cur : DeviceLive R}

theorem keepLive_pos_iff (cur : DeviceLive R) (points : List (HistoricalPoint R)) :
    0 < keepLive cur points ↔
      lastHistTs points < cur.lastTs ∧ 0 < cur.lastTs ∧ cur.rxHistory ≠ [] := by
  rw [← List.length_pos_iff]
  simp only [keepLive]
  split_ifs with hnew hpos hpos
  · omega
  · omega
  · omega
  · omega

/-- A frame is kept behind the points if and only if the code counts one. -/
theorem kept_map (h : Slot frames cur) (rate : Delta R → R) {value : R}
    (hvalue : ∀ c ∈ frames.getLast?, value = rate c) :
    (kept points frames).map rate = if 0 < keepLive cur points then [value] else [] := by
  rcases List.eq_nil_or_concat' frames with rfl | ⟨frames, c, rfl⟩
  · have hzero : cur.lastTs = 0 := h.lastTs
    rw [if_neg fun hpos => ?_]
    · rfl
    · have htimes := (keepLive_pos_iff cur points).mp hpos
      omega
  · have hts : cur.lastTs = c.atMs := by
      rw [h.lastTs, List.getLast?_concat]
      rfl
    have hne : cur.rxHistory ≠ [] := by
      rw [← List.length_pos_iff, h.rxHistory, length_newest]
      simp [HISTORY_CAP]
    have hpos : 0 < keepLive cur points ↔ lastHistTs points < c.atMs ∧ 0 < c.atMs := by
      rw [keepLive_pos_iff, hts]
      simp [hne]
    rw [kept, List.getLast?_concat, hvalue c (by simp)]
    by_cases hkeep : lastHistTs points < c.atMs ∧ 0 < c.atMs
    · rw [if_pos (hpos.mpr hkeep)]
      simp [hkeep]
    · rw [if_neg fun hkeep' => hkeep (hpos.mp hkeep')]
      simp [hkeep]

variable [LinearOrder R]

theorem foldl_max_foldl_max (a : R) (l : List R) :
    l.foldl max (l.foldl max a) = l.foldl max a := by
  rw [List.foldl_max, List.foldl_max]
  cases l.max? with
  | none =>
      simp
  | some m =>
      simp

/-- A slot that was hydrated keeps its live frame again. -/
theorem keepLive_hydrated (h : cur.rxHistory = [] → cur.lastTs = 0) :
    0 < keepLive (hydrated cur points) points ↔ 0 < keepLive cur points := by
  have hts : (hydrated cur points).lastTs = max cur.lastTs (lastHistTs points) := rfl
  constructor
  · intro hkeep
    obtain ⟨hnew, hpos, _⟩ := (keepLive_pos_iff _ _).mp hkeep
    rw [hts] at hnew hpos
    refine (keepLive_pos_iff _ _).mpr ⟨by omega, by omega, fun hnil => ?_⟩
    have hzero := h hnil
    omega
  · intro hkeep
    obtain ⟨hnew, hpos, _⟩ := (keepLive_pos_iff _ _).mp hkeep
    refine (keepLive_pos_iff _ _).mpr ⟨by rw [hts]; omega, by rw [hts]; omega, ?_⟩
    rw [← List.length_pos_iff, hydrated]
    dsimp only
    rw [length_newest, if_pos hkeep]
    simp [HISTORY_CAP]

/-- Hydrating a slot again changes nothing. -/
theorem hydrated_again (h : cur.rxHistory = [] → cur.lastTs = 0) :
    hydrated (hydrated cur points) points = hydrated cur points := by
  have hkeep : 0 < keepLive (hydrated cur points) points ↔ 0 < keepLive cur points :=
    keepLive_hydrated h
  rw [hydrated]
  simp only [hkeep]
  simp only [hydrated, foldl_max_foldl_max, max_assoc, max_self]

end Hydration

section Blending

variable {R : Type u} {points : List (HistoricalPoint R)} {frames : List (Delta R)}

/-- Behind so many points, the overtaken frames make no difference to a history. -/
def Blends (point : HistoricalPoint R → R) (rate : Delta R → R)
    (points : List (HistoricalPoint R)) (frames : List (Delta R)) : Prop :=
  newest (HISTORY_CAP - (kept points frames).length) (points.map point) =
    newest (HISTORY_CAP - (kept points frames).length)
      (points.map point ++ (overtaken points frames).map rate)

/-- One history, with and without the overtaken frames. -/
theorem newest_eq_iff_blends (point : HistoricalPoint R → R) (rate : Delta R → R)
    (h : frames.Pairwise fun c c' => c.atMs < c'.atMs) :
    newest HISTORY_CAP (points.map point ++ (kept points frames).map rate) =
        newest HISTORY_CAP (points.map point ++ (newer points frames).map rate) ↔
      Blends point rate points frames := by
  have hcap : ((kept points frames).map rate).length ≤ HISTORY_CAP := by
    rw [List.length_map]
    exact (length_kept points frames).trans (by decide)
  rw [newer_eq h, List.map_append, ← List.append_assoc, newest_append _ hcap,
    newest_append _ hcap, List.append_cancel_right_eq, List.length_map, Blends]

theorem blends_of_nil (h : overtaken points frames = []) (point : HistoricalPoint R → R)
    (rate : Delta R → R) : Blends point rate points frames := by
  rw [Blends, h, List.map_nil, List.append_nil]

/-- Overtaken frames can only blend with points that fill the history. -/
theorem Blends.full {point : HistoricalPoint R → R} {rate : Delta R → R}
    (h : Blends point rate points frames) (hlost : overtaken points frames ≠ []) :
    HISTORY_CAP ≤ points.length + (kept points frames).length := by
  have hlen := congrArg List.length h
  have hpos := List.length_pos_iff.mpr hlost
  rw [length_newest, length_newest, List.length_append, List.length_map, List.length_map] at hlen
  omega

end Blending

section Losses

variable {R : Type u} [AddCommMonoid R] [LinearOrder R]

/-- What a hydration is said to give: the newest of the points and of all newer frames,
and the same again if it is repeated. -/
structure LosesNothing (id : String) (points : List (HistoricalPoint R))
    (calls : List (Delta R)) : Prop where
  rxHistory : (slot (hydrateDevice (received calls) id points) id).rxHistory =
    newest HISTORY_CAP (points.map HistoricalPoint.rxBps ++
      (newer points (own id calls)).map Delta.rxBps)
  txHistory : (slot (hydrateDevice (received calls) id points) id).txHistory =
    newest HISTORY_CAP (points.map HistoricalPoint.txBps ++
      (newer points (own id calls)).map Delta.txBps)
  again : hydrateDevice (hydrateDevice (received calls) id points) id points =
    hydrateDevice (received calls) id points

variable {id : String} {points : List (HistoricalPoint R)} {calls : List (Delta R)}

theorem slot_hydrateDevice (state : LiveStatsState R) (id : String)
    (points : List (HistoricalPoint R)) :
    slot (hydrateDevice state id points) id = hydrated (slot state id) points := by
  rw [slot, hydrateDevice]
  dsimp only
  rw [Records.lookup_put_self]
  rfl

theorem hydrateDevice_eq (state : LiveStatsState R) (id : String)
    (points : List (HistoricalPoint R)) :
    hydrateDevice state id points =
      { devices := Records.put state.devices id (hydrated (slot state id) points)
        aggregate := buildAggregateFromDevices
          (Records.put state.devices id (hydrated (slot state id) points)) } := rfl

theorem hydrateDevice_again (id : String) (points : List (HistoricalPoint R))
    (calls : List (Delta R)) :
    hydrateDevice (hydrateDevice (received calls) id points) id points =
      hydrateDevice (received calls) id points := by
  have hslot := slot_received id calls
  have hempty : (slot (received calls) id).rxHistory = [] →
      (slot (received calls) id).lastTs = 0 := by
    intro hnil
    have hlen := congrArg List.length (hslot.rxHistory.symm.trans hnil)
    rw [length_newest, List.length_map, List.length_nil, HISTORY_CAP] at hlen
    have hnone : own id calls = [] := List.length_eq_zero_iff.mp (by omega)
    rw [hslot.lastTs, hnone]
    rfl
  have hagain : hydrated (hydrated (slot (received calls) id) points) points =
      hydrated (slot (received calls) id) points := hydrated_again hempty
  have hdevices : Records.put (hydrateDevice (received calls) id points).devices id
      (hydrated (slot (hydrateDevice (received calls) id points) id) points) =
      (hydrateDevice (received calls) id points).devices := by
    rw [slot_hydrateDevice, hagain]
    exact Records.put_put _ _ _
  rw [hydrateDevice_eq (hydrateDevice (received calls) id points), hdevices]
  rfl

/-- Nothing is lost if and only if no newer frame is overtaken, or the history is full
without them and its rates do not tell the difference. -/
theorem hydrate_history_iff (id : String) (points : List (HistoricalPoint R))
    (calls : List (Delta R)) (hframes : (own id calls).Pairwise fun c c' => c.atMs < c'.atMs) :
    LosesNothing id points calls ↔
      overtaken points (own id calls) = [] ∨
        HISTORY_CAP ≤ points.length + (kept points (own id calls)).length ∧
          Blends HistoricalPoint.rxBps Delta.rxBps points (own id calls) ∧
          Blends HistoricalPoint.txBps Delta.txBps points (own id calls) := by
  have hslot := slot_received id calls
  have hrx : (slot (hydrateDevice (received calls) id points) id).rxHistory =
      newest HISTORY_CAP (points.map HistoricalPoint.rxBps ++
        (kept points (own id calls)).map Delta.rxBps) := by
    rw [slot_hydrateDevice, kept_map hslot Delta.rxBps hslot.rxBps, hydrated]
  have htx : (slot (hydrateDevice (received calls) id points) id).txHistory =
      newest HISTORY_CAP (points.map HistoricalPoint.txBps ++
        (kept points (own id calls)).map Delta.txBps) := by
    rw [slot_hydrateDevice, kept_map hslot Delta.txBps hslot.txBps, hydrated]
  have hrx_iff := @newest_eq_iff_blends R points _ HistoricalPoint.rxBps Delta.rxBps hframes
  have htx_iff := @newest_eq_iff_blends R points _ HistoricalPoint.txBps Delta.txBps hframes
  constructor
  · intro h
    have hblend := hrx_iff.mp (hrx.symm.trans h.rxHistory)
    by_cases hlost : overtaken points (own id calls) = []
    · exact Or.inl hlost
    · exact Or.inr ⟨hblend.full hlost, hblend, htx_iff.mp (htx.symm.trans h.txHistory)⟩
  · intro h
    have hblends : Blends HistoricalPoint.rxBps Delta.rxBps points (own id calls) ∧
        Blends HistoricalPoint.txBps Delta.txBps points (own id calls) := by
      rcases h with hnone | ⟨_, hblends⟩
      · exact ⟨blends_of_nil hnone _ _, blends_of_nil hnone _ _⟩
      · exact hblends
    exact ⟨hrx.trans (hrx_iff.mpr hblends.1), htx.trans (htx_iff.mpr hblends.2),
      hydrateDevice_again id points calls⟩

/-- Of two frames, the older one is before the last point. -/
theorem hydrate_history_sample :
    LosesNothing "a" [⟨1500, 1, 1⟩] [tick "a" 5 1000, tick "a" 7 2000] :=
  (hydrate_history_iff "a" [⟨1500, 1, 1⟩] [tick "a" 5 1000, tick "a" 7 2000]
    (by decide)).mpr (.inl (by decide))

/-- Of two frames that raced with the fetch, the older one is lost. -/
theorem racing_frame_is_lost :
    (slot (hydrateDevice (received [tick "a" 5 2000, tick "a" 7 3000]) "a"
        [⟨1000, 1, 1⟩]) "a").rxHistory = [1, 7] ∧
      ¬ LosesNothing "a" [⟨1000, 1, 1⟩] [tick "a" 5 2000, tick "a" 7 3000] :=
  ⟨by decide, fun h => absurd h.rxHistory (by decide)⟩

end Losses

end LiveStats
end Web
end ZeroVpn
