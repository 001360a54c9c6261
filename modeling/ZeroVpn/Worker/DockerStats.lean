import ZeroVpn.Library.JsonText
import ZeroVpn.Library.Text
import Mathlib.Tactic.Common

/-!
# The chunked answer of the container engine

`decode_chunked` of `crates/zerovpn-worker/src/docker_stats.rs`: a cursor goes from
size line to size line of a chunked body.  The additions are those of a 64-bit
`usize`, which either panic or wrap around when they overflow; a slice panics when
its bounds are out of order or out of range.

`decode_chunked_ok_iff` says when the loop reaches its end: the size of a chunk is
added to the cursor before it is compared with the length of the input.
-/

namespace ZeroVpn

open Library Library.Text

namespace Worker
namespace DockerStats

/-- The ways in which the loop can abort; `unfinished` is left to the model. -/
inductive Panic where
  | addOverflow
  | sliceIndex
  | unfinished
  deriving DecidableEq, Repr

section Machine

/-- `a + b`, with or without overflow checks. -/
def addUsize (checks : Bool) (a b : Nat) : Except Panic Nat :=
  if a + b < 2 ^ 64 then .ok (a + b)
  else if checks then .error .addOverflow
  else .ok ((a + b) % 2 ^ 64)

/-- `&input[a..b]`. -/
def slice (input : List UInt8) (a b : Nat) : Except Panic (List UInt8) :=
  if a ≤ b ∧ b ≤ input.length then .ok ((input.drop a).take (b - a)) else .error .sliceIndex

/-- `find_crlf`. -/
def findCrlf : List UInt8 → Option Nat
  | [] => none
  | [_] => none
  | a :: b :: rest =>
      if a = 13 ∧ b = 10 then some 0 else (findCrlf (b :: rest)).map fun i => i + 1

/-- `str::from_utf8`. -/
def fromUtf8 (bytes : List UInt8) : Option (List Char) :=
  (String.fromUTF8? bytes.toByteArray).map String.toList

/-- The value of hexadecimal digits. -/
def hexDigits (cs : List Char) : Option Nat :=
  cs.foldl (fun acc c => acc.bind fun n => (Json.hexValue c).map fun d => n * 16 + d) (some 0)

/-- `usize::from_str_radix(_, 16)`. -/
def fromStrRadix16 (cs : List Char) : Option Nat :=
  let digits := if cs.head? = some '+' then cs.tail else cs
  if digits = [] then none
  else (hexDigits digits).bind fun n => if n < 2 ^ 64 then some n else none

/-- The size in a size line; an extension comes after a semicolon. -/
def chunkSize (line : List UInt8) : Option Nat :=
  let sizeStr := (fromUtf8 line).getD []
  let sizeHex := trim (sizeStr.takeWhile fun c => c != ';')
  fromStrRadix16 sizeHex

/-- The loop, for a bounded number of rounds. -/
def decodeLoop (checks : Bool) (input : List UInt8) :
    Nat → Nat → List UInt8 → Except Panic (List UInt8)
  | 0, _, _ => .error .unfinished
  | fuel + 1, i, out =>
      if i < input.length then do
        let rest ← slice input i input.length
        match findCrlf rest with
        | none => pure out
        | some p => do
            let lineEnd ← addUsize checks i p
            let line ← slice input i lineEnd
            match chunkSize line with
            | none => pure out
            | some size => do
                let i ← addUsize checks lineEnd 2
                if size = 0 then pure out
                else do
                  let chunkEnd ← addUsize checks i size
                  if input.length < chunkEnd then pure out
                  else do
                    let data ← slice input i chunkEnd
                    let next ← addUsize checks chunkEnd 2
                    decodeLoop checks input fuel next (out ++ data)
      else pure out

/-- `decode_chunked`. -/
def decodeChunked (checks : Bool) (input : List UInt8) : Except Panic (List UInt8) :=
  decodeLoop checks input (input.length + 1) 0 []

end Machine

section Header

variable {input : List UInt8} {checks : Bool} {i e n fuel : Nat} {out : List UInt8}

theorem findCrlf_bound {bytes : List UInt8} {p : Nat} (h : findCrlf bytes = some p) :
    p + 2 ≤ bytes.length := by
  induction bytes generalizing p with
  | nil =>
      cases h
  | cons a rest ih =>
      cases rest with
      | nil =>
          cases h
      | cons b rest =>
          rw [findCrlf] at h
          split at h
          · cases h
            simp
          · obtain ⟨q, hq, rfl⟩ := Option.map_eq_some_iff.mp h
            have hbound := ih hq
            simp only [List.length_cons] at hbound ⊢
            omega

theorem fromStrRadix16_bound {cs : List Char} (h : fromStrRadix16 cs = some n) : n < 2 ^ 64 := by
  unfold fromStrRadix16 at h
  dsimp only at h
  generalize (if cs.head? = some '+' then cs.tail else cs) = digits at h
  split at h
  · cases h
  · obtain ⟨m, _, hm⟩ := Option.bind_eq_some_iff.mp h
    split at hm
    · cases hm
      assumption
    · cases hm

/-- The size line that begins at a position: where it ends, and the size. -/
def sizeLine (input : List UInt8) (i : Nat) : Option (Nat × Nat) :=
  if i < input.length then
    (findCrlf (input.drop i)).bind fun p =>
      (chunkSize ((input.drop i).take p)).map fun n => (i + p, n)
  else none

theorem sizeLine_bound (h : sizeLine input i = some (e, n)) :
    i ≤ e ∧ e + 2 ≤ input.length ∧ n < 2 ^ 64 := by
  unfold sizeLine at h
  split at h
  · obtain ⟨p, hp, hsize⟩ := Option.bind_eq_some_iff.mp h
    obtain ⟨m, hm, heq⟩ := Option.map_eq_some_iff.mp hsize
    cases heq
    have hbound := findCrlf_bound hp
    have hsmall := fromStrRadix16_bound hm
    rw [List.length_drop] at hbound
    exact ⟨by omega, by omega, hsmall⟩
  · cases h

theorem addUsize_ok {a b : Nat} (h : a + b < 2 ^ 64) : addUsize checks a b = .ok (a + b) :=
  if_pos h

/-- What one round does. -/
theorem decodeLoop_succ (hlen : input.length < 2 ^ 63) :
    decodeLoop checks input (fuel + 1) i out =
      match sizeLine input i with
      | none => .ok out
      | some (e, n) =>
          if n = 0 then .ok out
          else if 2 ^ 64 ≤ e + 2 + n then
            if checks then .error .addOverflow else .error .sliceIndex
          else if input.length < e + 2 + n then .ok out
          else decodeLoop checks input fuel (e + 2 + n + 2) (out ++ (input.drop (e + 2)).take n) := by
  rw [decodeLoop]
  by_cases hi : i < input.length
  · have hrest : slice input i input.length = .ok (input.drop i) := by
      rw [slice, if_pos ⟨by omega, le_rfl⟩, List.take_of_length_le (by simp)]
    rw [if_pos hi, hrest]
    simp only [bind, Except.bind, sizeLine, if_pos hi, pure, Except.pure]
    cases hp : findCrlf (input.drop i) with
    | none =>
        rfl
    | some p =>
        have hbound := findCrlf_bound hp
        rw [List.length_drop] at hbound
        have hline : slice input i (i + p) = .ok ((input.drop i).take p) := by
          rw [slice, if_pos ⟨by omega, by omega⟩, Nat.add_sub_cancel_left]
        simp only [addUsize_ok (show i + p < 2 ^ 64 by omega), hline, Option.bind_some]
        cases hsize : chunkSize ((input.drop i).take p) with
        | none =>
            rfl
        | some n =>
            have hsmall : n < 2 ^ 64 := fromStrRadix16_bound hsize
            simp only [addUsize_ok (show i + p + 2 < 2 ^ 64 by omega), Option.map_some]
            by_cases hzero : n = 0
            · rw [if_pos hzero, if_pos hzero]
            · rw [if_neg hzero, if_neg hzero]
              by_cases hover : 2 ^ 64 ≤ i + p + 2 + n
              · -- a sum that wraps around is less than the cursor
                rw [if_pos hover, addUsize, if_neg (by omega)]
                cases checks with
                | true =>
                    rfl
                | false =>
                    have hwrap : (i + p + 2 + n) % 2 ^ 64 < i + p + 2 := by omega
                    rw [if_neg Bool.false_ne_true, if_neg Bool.false_ne_true]
                    dsimp only
                    rw [if_neg (by omega), slice, if_neg (by omega)]
              · rw [if_neg hover, addUsize_ok (by omega)]
                dsimp only
                by_cases hlong : input.length < i + p + 2 + n
                · rw [if_pos hlong, if_pos hlong]
                · rw [if_neg hlong, if_neg hlong, slice, if_pos ⟨by omega, by omega⟩,
                    Nat.add_sub_cancel_left]
                  dsimp only
                  rw [addUsize_ok (by omega)]
  · rw [if_neg hi, sizeLine, if_neg hi]
    rfl

end Header

section Totality

variable {input : List UInt8} {checks : Bool} {i j e n : Nat}

/-- The positions at which the loop reads a size line, from a position on. -/
inductive ReadsFrom (input : List UInt8) : Nat → Nat → Prop
  | here (i : Nat) :
      ReadsFrom input i i
  | next {i j e n : Nat}
      (hline : sizeLine input i = some (e, n))
      (hsize : n ≠ 0)
      (hfits : e + 2 + n ≤ input.length)
      (hrest : ReadsFrom input (e + 2 + n + 2) j) :
      ReadsFrom input i j

/-- No size line that is read announces a chunk that ends outside of the address
space. -/
def SizesFit (input : List UInt8) (i : Nat) : Prop :=
  ∀ j e n, ReadsFrom input i j → sizeLine input j = some (e, n) → e + 2 + n < 2 ^ 64

theorem sizesFit_of_none (h : sizeLine input i = none) : SizesFit input i := by
  intro j e n hread hline
  cases hread with
  | here =>
      rw [h] at hline
      cases hline
  | next hfirst _ _ _ =>
      rw [h] at hfirst
      cases hfirst

/-- Behind a chunk that is not copied nothing is read. -/
theorem sizesFit_last (h : sizeLine input i = some (e, n))
    (hstop : n = 0 ∨ input.length < e + 2 + n) :
    SizesFit input i ↔ e + 2 + n < 2 ^ 64 := by
  constructor
  · intro hfit
    exact hfit i e n (ReadsFrom.here i) h
  · intro hsmall j e' n' hread hline
    cases hread with
    | here =>
        cases h.symm.trans hline
        exact hsmall
    | next hfirst hsize hfits _ =>
        cases h.symm.trans hfirst
        rcases hstop with hzero | hlong
        · exact absurd hzero hsize
        · exact absurd hfits (by omega)

/-- Behind a chunk that is copied the reading goes on. -/
theorem sizesFit_next (h : sizeLine input i = some (e, n)) (hsize : n ≠ 0)
    (hfits : e + 2 + n ≤ input.length) (hlen : input.length < 2 ^ 63) :
    SizesFit input i ↔ SizesFit input (e + 2 + n + 2) := by
  constructor
  · intro hfit j e' n' hread hline
    exact hfit j e' n' (ReadsFrom.next h hsize hfits hread) hline
  · intro hfit j e' n' hread hline
    cases hread with
    | here =>
        cases h.symm.trans hline
        omega
    | next hfirst _ _ hrest =>
        cases h.symm.trans hfirst
        exact hfit j e' n' hrest hline

/-- The loop gets through to its end, with enough rounds, exactly then. -/
theorem decodeLoop_ok_iff (hlen : input.length < 2 ^ 63) (fuel : Nat) (i : Nat)
    (out : List UInt8) (hfuel : input.length ≤ i + fuel) :
    (∃ r, decodeLoop checks input (fuel + 1) i out = .ok r) ↔ SizesFit input i := by
  induction fuel generalizing i out with
  | zero =>
      have hnone : sizeLine input i = none := if_neg (by omega)
      rw [decodeLoop_succ hlen, hnone]
      exact iff_of_true ⟨out, rfl⟩ (sizesFit_of_none hnone)
  | succ fuel ih =>
      rw [decodeLoop_succ hlen]
      cases hline : sizeLine input i with
      | none =>
          exact iff_of_true ⟨out, rfl⟩ (sizesFit_of_none hline)
      | some header =>
          obtain ⟨e, n⟩ := header
          have hbound := sizeLine_bound hline
          dsimp only
          by_cases hzero : n = 0
          · rw [if_pos hzero, sizesFit_last hline (Or.inl hzero)]
            exact iff_of_true ⟨out, rfl⟩ (by omega)
          · rw [if_neg hzero]
            by_cases hover : 2 ^ 64 ≤ e + 2 + n
            · rw [if_pos hover, sizesFit_last hline (Or.inr (by omega))]
              refine iff_of_false ?_ (by omega)
              rintro ⟨r, hr⟩
              cases checks with
              | true =>
                  cases hr
              | false =>
                  cases hr
            · rw [if_neg hover]
              by_cases hlong : input.length < e + 2 + n
              · rw [if_pos hlong, sizesFit_last hline (Or.inr hlong)]
                exact iff_of_true ⟨out, rfl⟩ (by omega)
              · rw [if_neg hlong, sizesFit_next hline hzero (by omega) hlen]
                exact ih _ _ (by omega)

/-- The decoder returns, whether or not additions are checked, if and only if every
size line that it reads announces a chunk that ends inside of the address space. -/
theorem decode_chunked_ok_iff (checks : Bool) (input : List UInt8)
    (hlen : input.length < 2 ^ 63) :
    (∃ out, decodeChunked checks input = .ok out) ↔ SizesFit input 0 :=
  decodeLoop_ok_iff hlen input.length 0 [] (by omega)

/-- `2\r\nab\r\n0\r\n\r\n` -/
def twoBytes : List UInt8 :=
  [50, 13, 10, 97, 98, 13, 10, 48, 13, 10, 13, 10]

theorem decode_chunked_ok_sample :
    ∃ out, decodeChunked true twoBytes = .ok out := by
  have hlast : SizesFit twoBytes 7 :=
    (sizesFit_last (e := 8) (n := 0) (by decide) (Or.inl rfl)).mpr (by decide)
  have hall : SizesFit twoBytes 0 :=
    (sizesFit_next (e := 1) (n := 2) (by decide) (by decide) (by decide)
      (by decide)).mpr hlast
  exact (decode_chunked_ok_iff true twoBytes (by decide)).mpr hall

/-- `ffffffffffffffff\r\n` -/
def hugeChunk : List UInt8 :=
  List.replicate 16 102 ++ [13, 10]

/-- A chunk whose end is not a 64-bit number aborts the tick: in the addition where
additions are checked, and otherwise in the slice. -/
theorem huge_chunk_aborts :
    decodeChunked true hugeChunk = .error .addOverflow ∧
      decodeChunked false hugeChunk = .error .sliceIndex := by
  decide

end Totality

end DockerStats
end Worker
end ZeroVpn
