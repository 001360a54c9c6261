import ZeroVpn.Library.Records
import Mathlib.Algebra.BigOperators.Group.Finset.Basic
import Mathlib.Algebra.Order.Group.Int
import Mathlib.Order.Lattice

/-!
# The live statistics of the dashboard

The store of `web/src/stores/liveStats.ts`, as far as devices and their aggregate go:
`applyDelta` for a live tick of a device and `hydrateDevice` for its fetched history.

Rates are elements of any ordered additive monoid, so the rounding of sums is left out.
Timestamps are milliseconds; `Math.floor(at / 1000)` is the division of integers.
-/

namespace ZeroVpn

open Library

namespace Web
namespace LiveStats

universe u

def HISTORY_CAP : Nat := 1800

section Histories

variable {α : Type u}

/-- `arr.slice(-cap)`. -/
def newest (cap : Nat) (arr : List α) : List α := arr.drop (arr.length - cap)

/-- `pushCapped`. -/
def pushCapped (arr : List α) (next : α) (cap : Nat) : List α :=
  if arr.length < cap then arr ++ [next] else arr.drop (arr.length - cap + 1) ++ [next]

/-- `replaceLastCapped`. -/
def replaceLastCapped (arr : List α) (next : α) : List α :=
  if arr.length = 0 then [next] else newest HISTORY_CAP (arr.dropLast ++ [next])

theorem length_newest (cap : Nat) (arr : List α) : (newest cap arr).length = min cap arr.length := by
  rw [newest, List.length_drop]
  omega

theorem newest_of_le {cap : Nat} {arr : List α} (h : arr.length ≤ cap) : newest cap arr = arr := by
  rw [newest, Nat.sub_eq_zero_of_le h, List.drop_zero]

/-- The last entries of a history with a short end. -/
theorem newest_append {cap : Nat} (arr : List α) {added : List α} (h : added.length ≤ cap) :
    newest cap (arr ++ added) = newest (cap - added.length) arr ++ added := by
  rw [newest, List.length_append, List.drop_append_of_le_length (by omega), newest]
  congr 2
  omega

/-- The last entries of a history that grew by one. -/
theorem newest_concat {cap : Nat} (hcap : 0 < cap) (arr : List α) (next : α) :
    newest cap (arr ++ [next]) = pushCapped (newest cap arr) next cap := by
  rw [newest_append arr (Nat.succ_le_of_lt hcap), List.length_singleton]
  unfold pushCapped
  rw [length_newest]
  split
  · rw [newest_of_le (by omega), newest_of_le (by omega)]
  · rw [newest, newest, List.drop_drop]
    congr 2
    omega

/-- The last entries of a history whose last entry was replaced. -/
theorem newest_replace (arr : List α) (x next : α) :
    newest HISTORY_CAP (arr ++ [next]) =
      replaceLastCapped (newest HISTORY_CAP (arr ++ [x])) next := by
  have hcap : 1 ≤ HISTORY_CAP := by decide
  have hlen : (newest (HISTORY_CAP - 1) arr ++ [next]).length ≤ HISTORY_CAP := by
    rw [List.length_append, length_newest, List.length_singleton]
    omega
  have hx : newest HISTORY_CAP (arr ++ [x]) = newest (HISTORY_CAP - 1) arr ++ [x] :=
    newest_append arr hcap
  have hnext : newest HISTORY_CAP (arr ++ [next]) = newest (HISTORY_CAP - 1) arr ++ [next] :=
    newest_append arr hcap
  rw [hx, hnext, replaceLastCapped, if_neg (by simp), List.dropLast_concat, newest_of_le hlen]

theorem getLast?_newest {cap : Nat} (hcap : 0 < cap) (arr : List α) :
    (newest cap arr).getLast? = arr.getLast? := by
  rw [newest, List.getLast?_drop]
  split
  · have hnil : arr = [] := List.length_eq_zero_iff.mp (by omega)
    rw [hnil]
    rfl
  · rfl

end Histories

section Store

variable {R : Type u} [AddCommMonoid R] [LinearOrder R]

structure DeviceLive (R : Type u) where
  rxBps : R
  txBps : R
  rxHistory : List R
  txHistory : List R
  lastTs : Int
  lastSeenTs : Int
  lifeRxBytes : R
  lifeTxBytes : R
  peakRx : R
  peakTx : R
  totalRx : R
  totalTx : R
  deriving DecidableEq

structure AggregateLive (R : Type u) where
  rxHistory : List R
  txHistory : List R
  rxBps : R
  txBps : R
  lastBucketSec : Int
  deriving DecidableEq

/-- One historical tick. -/
structure HistoricalPoint (R : Type u) where
  ts : Int
  rxBps : R
  txBps : R
  deriving DecidableEq

/-- The part of `LiveStatsState` that devices have to do with. -/
structure LiveStatsState (R : Type u) where
  devices : List (String × DeviceLive R)
  aggregate : AggregateLive R
  deriving DecidableEq

/-- `empty()`. -/
def empty : DeviceLive R where
  rxBps := 0
  txBps := 0
  rxHistory := []
  txHistory := []
  lastTs := 0
  lastSeenTs := 0
  lifeRxBytes := 0
  lifeTxBytes := 0
  peakRx := 0
  peakTx := 0
  totalRx := 0
  totalTx := 0

/-- `emptyAggregate()`. -/
def emptyAggregate : AggregateLive R where
  rxHistory := []
  txHistory := []
  rxBps := 0
  txBps := 0
  lastBucketSec := 0

/-- The store before the first event. -/
def initial : LiveStatsState R where
  devices := []
  aggregate := emptyAggregate

/-- The arguments of a call of `applyDelta`, and what `Date.now()` returns in it. -/
structure Delta (R : Type u) where
  id : String
  rxBps : R
  txBps : R
  ts : Option Int
  totalRxBytes : R
  totalTxBytes : R
  now : Int

namespace Delta

/-- `ts ?? Date.now()`. -/
def atMs (c : Delta R) : Int := c.ts.getD c.now

/-- `Math.floor(at / 1000)`. -/
def second (c : Delta R) : Int := c.atMs / 1000

end Delta

/-- The slot of a device after a delta. -/
def deviceAfter (cur : DeviceLive R) (c : Delta R) : DeviceLive R where
  rxBps := c.rxBps
  txBps := c.txBps
  rxHistory := pushCapped cur.rxHistory c.rxBps HISTORY_CAP
  txHistory := pushCapped cur.txHistory c.txBps HISTORY_CAP
  lastTs := c.atMs
  lastSeenTs := if 0 < c.rxBps ∨ 0 < c.txBps then c.atMs else cur.lastSeenTs
  lifeRxBytes := max cur.lifeRxBytes c.totalRxBytes
  lifeTxBytes := max cur.lifeTxBytes c.totalTxBytes
  peakRx := max cur.peakRx c.rxBps
  peakTx := max cur.peakTx c.txBps
  totalRx := cur.totalRx + c.rxBps
  totalTx := cur.totalTx + c.txBps

/-- The sum over `Object.values(devices)`. -/
def sumOf (rate : DeviceLive R → R) (devices : List (String × DeviceLive R)) : R :=
  devices.foldl (fun sum e => sum + rate e.2) 0

/-- The aggregate after a delta, from the devices after it. -/
def aggregateAfter (devices : List (String × DeviceLive R)) (aggregate : AggregateLive R)
    (bucket : Int) : AggregateLive R :=
  let aggRx := sumOf DeviceLive.rxBps devices
  let aggTx := sumOf DeviceLive.txBps devices
  let isNewBucket := aggregate.lastBucketSec < bucket
  { rxHistory :=
      if isNewBucket then pushCapped aggregate.rxHistory aggRx HISTORY_CAP
      else replaceLastCapped aggregate.rxHistory aggRx
    txHistory :=
      if isNewBucket then pushCapped aggregate.txHistory aggTx HISTORY_CAP
      else replaceLastCapped aggregate.txHistory aggTx
    rxBps := aggRx
    txBps := aggTx
    lastBucketSec := bucket }

/-- `applyDelta`. -/
def applyDelta (state : LiveStatsState R) (c : Delta R) : LiveStatsState R :=
  let cur := (state.devices.lookup c.id).getD empty
  let newDevices := Records.put state.devices c.id (deviceAfter cur c)
  { devices := newDevices
    aggregate := aggregateAfter newDevices state.aggregate c.second }

/-- A history added to an array at its right end. -/
def addAligned (sums history : List R) (offset length : Nat) : List R :=
  sums.mapIdx fun i sum =>
    if offset ≤ i ∧ i - offset < length then sum + history.getD (i - offset) 0 else sum

/-- `buildAggregateFromDevices`. -/
def buildAggregateFromDevices (devices : List (String × DeviceLive R)) : AggregateLive R :=
  if devices.length = 0 then emptyAggregate
  else
    let maxLen := devices.foldl (fun m e => max m e.2.rxHistory.length) 0
    let add := fun (history : DeviceLive R → List R) (sums : List R) (e : String × DeviceLive R) =>
      addAligned sums (history e.2) (maxLen - e.2.rxHistory.length) e.2.rxHistory.length
    let rx := devices.foldl (add DeviceLive.rxHistory) (List.replicate maxLen 0)
    let tx := devices.foldl (add DeviceLive.txHistory) (List.replicate maxLen 0)
    let lastTs := devices.foldl (fun m e => max m e.2.lastTs) 0
    { rxHistory := newest HISTORY_CAP rx
      txHistory := newest HISTORY_CAP tx
      rxBps := sumOf DeviceLive.rxBps devices
      txBps := sumOf DeviceLive.txBps devices
      lastBucketSec := lastTs / 1000 }

/-- The time of the last point, zero without points. -/
def lastHistTs (points : List (HistoricalPoint R)) : Int :=
  (points.getLast?.map HistoricalPoint.ts).getD 0

/-- How many live frames are kept behind the points. -/
def keepLive (cur : DeviceLive R) (points : List (HistoricalPoint R)) : Nat :=
  let liveLen := cur.rxHistory.length
  let liveSinceTs := if lastHistTs points < cur.lastTs then cur.lastTs else 0
  if 0 < liveSinceTs then min liveLen 1 else 0

/-- The slot of a device after its history was fetched. -/
def hydrated (cur : DeviceLive R) (points : List (HistoricalPoint R)) : DeviceLive R :=
  let rxSeed := points.map HistoricalPoint.rxBps ++
    if 0 < keepLive cur points then [cur.rxBps] else []
  let txSeed := points.map HistoricalPoint.txBps ++
    if 0 < keepLive cur points then [cur.txBps] else []
  let rxHistory := newest HISTORY_CAP rxSeed
  let txHistory := newest HISTORY_CAP txSeed
  { cur with
    rxHistory := rxHistory
    txHistory := txHistory
    lastTs := max cur.lastTs (lastHistTs points)
    peakRx := rxHistory.foldl max cur.peakRx
    peakTx := txHistory.foldl max cur.peakTx }

/-- `hydrateDevice`. -/
def hydrateDevice (state : LiveStatsState R) (id : String) (points : List (HistoricalPoint R)) :
    LiveStatsState R :=
  let cur := (state.devices.lookup id).getD empty
  let newDevices := Records.put state.devices id (hydrated cur points)
  { devices := newDevices
    aggregate := buildAggregateFromDevices newDevices }

/-- The store after a sequence of deltas. -/
def received (calls : List (Delta R)) : LiveStatsState R := calls.foldl applyDelta initial

theorem received_concat (calls : List (Delta R)) (c : Delta R) :
    received (calls ++ [c]) = applyDelta (received calls) c := by
  rw [received, List.foldl_append]
  rfl

/-- A tick of a device at a time. -/
def tick (id : String) (rx ts : Int) : Delta Int where
  id := id
  rxBps := rx
  txBps := 0
  ts := some ts
  totalRxBytes := 0
  totalTxBytes := 0
  now := 0

end Store

end LiveStats
end Web
end ZeroVpn
