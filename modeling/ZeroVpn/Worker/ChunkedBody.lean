import ZeroVpn.Library.JsonBytes
import ZeroVpn.Worker.DockerStats
import Mathlib.Tactic.Common

/-!
# Chunked bodies

The encoding that `decode_chunked` undoes: a payload in non-empty chunks, the size of
each in hexadecimal digits of either casing and perhaps with leading zeros, perhaps an
extension behind it, and at the end a chunk of size zero and a trailer.

`decodeRest` is the decoder over the bytes that remain; `decodeLoop_eq_rest` connects it
to the loop.  `decode_chunked_inverts_iff` says of which encodings the decoder is an
inverse, on the whole encoding and on each of its prefixes.
-/

namespace ZeroVpn

open Library Library.Text

namespace Worker
namespace DockerStats

section Utf8

variable {bytes : List UInt8} {cs : List Char}

theorem fromUtf8_eq_some_iff : fromUtf8 bytes = some cs ↔ bytes = Json.utf8 cs := by
  constructor
  · intro h
    obtain ⟨s, hs, rfl⟩ := Option.map_eq_some_iff.mp h
    unfold String.fromUTF8? at hs
    split at hs
    · cases hs
      have henc := String.utf8Encode_toList (b := String.fromUTF8 bytes.toByteArray ‹_›)
      have hbytes : bytes.toByteArray = (Json.utf8 _).toByteArray := henc.symm
      simpa using congrArg (fun b => b.data.toList) hbytes
    · cases hs
  · rintro rfl
    have hvalid : (Json.utf8 cs).toByteArray.IsValidUTF8 := ByteArray.isValidUTF8_utf8Encode
    have hs : String.fromUTF8 (Json.utf8 cs).toByteArray hvalid = String.ofList cs := by
      rw [← String.toByteArray_inj, String.toByteArray_ofList]
      rfl
    rw [fromUtf8, String.fromUTF8?, dif_pos hvalid, hs, Option.map_some, String.toList_ofList]

theorem utf8_append (cs ds : List Char) : Json.utf8 (cs ++ ds) = Json.utf8 cs ++ Json.utf8 ds :=
  List.flatMap_append

theorem fromUtf8_isSome_iff : (fromUtf8 bytes).isSome ↔ bytes.toByteArray.IsValidUTF8 := by
  unfold fromUtf8 String.fromUTF8?
  split <;> simp_all

/-- Bytes behind a text are a text if the whole is one. -/
theorem isSome_of_append (cs : List Char) (h : (fromUtf8 (Json.utf8 cs ++ bytes)).isSome) :
    (fromUtf8 bytes).isSome := by
  induction cs with
  | nil =>
      exact h
  | cons c cs ih =>
      refine ih ?_
      have hsplit : (Json.utf8 (c :: cs) ++ bytes).toByteArray =
          [c].utf8Encode ++ (Json.utf8 cs ++ bytes).toByteArray := by
        rw [← List.singleton_append, utf8_append, List.append_assoc, List.toByteArray_append]
        rfl
      rw [fromUtf8_isSome_iff, hsplit,
        ByteArray.isValidUTF8_utf8Encode_singleton_append_iff] at h
      exact fromUtf8_isSome_iff.mpr h

theorem fromUtf8_append (cs : List Char) (bytes : List UInt8) :
    fromUtf8 (Json.utf8 cs ++ bytes) = (fromUtf8 bytes).map fun ds => cs ++ ds := by
  cases h : fromUtf8 bytes with
  | none =>
      cases hall : fromUtf8 (Json.utf8 cs ++ bytes) with
      | none =>
          rfl
      | some ds =>
          have hsome := isSome_of_append cs (by rw [hall]; rfl)
          rw [h] at hsome
          cases hsome
  | some ds =>
      rw [fromUtf8_eq_some_iff.mp h, ← utf8_append]
      exact fromUtf8_eq_some_iff.mpr rfl

end Utf8

section SizeLines

/-- A hexadecimal digit, in either casing. -/
def digitChar (d : Fin 16) (upper : Bool) : Char :=
  if d.val < 10 then Char.ofNat (48 + d.val)
  else if upper then Char.ofNat (55 + d.val)
  else Char.ofNat (87 + d.val)

theorem hexValue_digitChar : ∀ d upper, Json.hexValue (digitChar d upper) = some d.val := by
  decide

theorem digitChar_plain : ∀ d upper, isWhitespace (digitChar d upper) = false ∧
    digitChar d upper ≠ '+' ∧ digitChar d upper ≠ ';' ∧
    (13 : UInt8) ∉ String.utf8EncodeChar (digitChar d upper) := by
  decide

/-- A size line: hexadecimal digits, and perhaps an extension without a line end. -/
structure SizeLine where
  digits : List (Fin 16 × Bool)
  extension : List UInt8
  digits_ne_nil : digits ≠ []
  extension_head : ∀ b ∈ extension.head?, b = 59
  extension_crlf : ¬ [13, 10] <:+: extension

namespace SizeLine

/-- The number that the digits stand for. -/
def value (line : SizeLine) : Nat :=
  line.digits.foldl (fun n d => n * 16 + d.1.val) 0

def text (line : SizeLine) : List Char :=
  line.digits.map fun d => digitChar d.1 d.2

def bytes (line : SizeLine) : List UInt8 :=
  Json.utf8 line.text ++ line.extension

/-- The extension is a text. -/
def Readable (line : SizeLine) : Prop :=
  (fromUtf8 line.extension).isSome = true

instance (line : SizeLine) : Decidable line.Readable :=
  inferInstanceAs (Decidable (_ = true))

variable (line : SizeLine)

theorem mem_text {c : Char} (h : c ∈ line.text) : ∃ d upper, c = digitChar d upper := by
  obtain ⟨d, _, rfl⟩ := List.mem_map.mp h
  exact ⟨d.1, d.2, rfl⟩

theorem hexDigits_text : hexDigits line.text = some line.value := by
  have hfold : ∀ (digits : List (Fin 16 × Bool)) (n : Nat),
      (digits.map fun d => digitChar d.1 d.2).foldl
          (fun acc c => acc.bind fun n => (Json.hexValue c).map fun d => n * 16 + d) (some n) =
        some (digits.foldl (fun n d => n * 16 + d.1.val) n) := by
    intro digits
    induction digits with
    | nil =>
        intro n
        rfl
    | cons d digits ih =>
        intro n
        rw [List.map_cons, List.foldl_cons, List.foldl_cons, Option.bind_some,
          hexValue_digitChar, Option.map_some]
        exact ih _
  exact hfold line.digits 0

theorem fromStrRadix16_text :
    fromStrRadix16 line.text = if line.value < 2 ^ 64 then some line.value else none := by
  have hne : line.text ≠ [] := by
    simpa [text] using line.digits_ne_nil
  have hplus : ¬ line.text.head? = some '+' := by
    intro h
    obtain ⟨d, upper, hc⟩ := line.mem_text (List.mem_of_head? h)
    exact (digitChar_plain d upper).2.1 hc.symm
  unfold fromStrRadix16
  rw [if_neg hplus]
  dsimp only
  rw [if_neg hne, hexDigits_text, Option.bind_some]

theorem trim_text : trim line.text = line.text := by
  refine trim_eq_self ?_ ?_
  · intro c hc
    obtain ⟨d, upper, rfl⟩ := line.mem_text (List.mem_of_head? hc)
    exact (digitChar_plain d upper).1
  · intro c hc
    obtain ⟨d, upper, rfl⟩ := line.mem_text (List.mem_of_getLast? hc)
    exact (digitChar_plain d upper).1

/-- The decoded extension begins with a semicolon as well. -/
theorem extension_text {cs : List Char} (h : fromUtf8 line.extension = some cs) :
    ∀ c ∈ cs.head?, c = ';' := by
  have hext := fromUtf8_eq_some_iff.mp h
  cases hcase : line.extension with
  | nil =>
      rw [hcase] at h
      cases h.symm.trans (fromUtf8_eq_some_iff.mpr (by rfl : [] = Json.utf8 []))
      simp
  | cons b rest =>
      have hb : b = 59 := line.extension_head b (by rw [hcase]; rfl)
      have hsplit : line.extension = Json.utf8 [';'] ++ rest := by
        rw [hcase, hb]
        rfl
      rw [hsplit, fromUtf8_append] at h
      obtain ⟨ds, _, rfl⟩ := Option.map_eq_some_iff.mp h
      simp

/-- The size is read unless the extension is not a text. -/
theorem chunkSize_bytes :
    chunkSize line.bytes =
      if line.Readable ∧ line.value < 2 ^ 64 then some line.value else none := by
  unfold chunkSize bytes
  rw [fromUtf8_append]
  cases hext : fromUtf8 line.extension with
  | none =>
      rw [if_neg fun h => by simp [Readable, hext] at h]
      rfl
  | some cs =>
      have hsemi : ∀ c ∈ line.text, (c != ';') = true := by
        intro c hc
        obtain ⟨d, upper, rfl⟩ := line.mem_text hc
        exact bne_iff_ne.mpr (digitChar_plain d upper).2.2.1
      have htake : (line.text ++ cs).takeWhile (fun c => c != ';') = line.text := by
        rw [List.takeWhile_append_of_pos hsemi]
        cases cs with
        | nil =>
            simp
        | cons c cs =>
            rw [line.extension_text hext c rfl]
            simp
      have hread : line.Readable := by
        rw [Readable, hext]
        rfl
      simp only [Option.map_some, Option.getD_some, htake, trim_text, fromStrRadix16_text,
        hread, true_and]

/-- No line end inside of the line. -/
theorem crlf_bytes : ¬ [13, 10] <:+: line.bytes := by
  have hchars : ∀ cs : List Char, (∀ c ∈ cs, (13 : UInt8) ∉ String.utf8EncodeChar c) →
      (13 : UInt8) ∉ Json.utf8 cs := by
    intro cs hcs hmem
    obtain ⟨c, hc, h⟩ := List.mem_flatMap.mp hmem
    exact hcs c hc h
  have htext : (13 : UInt8) ∉ Json.utf8 line.text := by
    refine hchars _ fun c hc => ?_
    obtain ⟨d, upper, rfl⟩ := line.mem_text hc
    exact (digitChar_plain d upper).2.2.2
  have happend : ∀ head : List UInt8, (13 : UInt8) ∉ head →
      ¬ [13, 10] <:+: head ++ line.extension := by
    intro head
    induction head with
    | nil =>
        intro _
        exact line.extension_crlf
    | cons b head ih =>
        intro hb hinside
        rcases List.infix_cons_iff.mp hinside with hpre | hrest
        · exact hb (List.mem_cons.mpr (Or.inl (List.cons_prefix_cons.mp hpre).1))
        · exact ih (fun h => hb (List.mem_cons_of_mem b h)) hrest
  exact happend _ htext

end SizeLine

end SizeLines

section LineEnds

variable {line rest more : List UInt8}

theorem findCrlf_eq_none (h : ¬ [13, 10] <:+: rest) : findCrlf rest = none := by
  induction rest with
  | nil =>
      rfl
  | cons a rest ih =>
      cases rest with
      | nil =>
          rfl
      | cons b rest =>
          rw [findCrlf, if_neg, ih fun hinside => h (List.infix_cons hinside)]
          · rfl
          · rintro ⟨rfl, rfl⟩
            exact h ⟨[], rest, rfl⟩

theorem findCrlf_line (h : ¬ [13, 10] <:+: line) (more : List UInt8) :
    findCrlf (line ++ 13 :: 10 :: more) = some line.length := by
  induction line with
  | nil =>
      rfl
  | cons a line ih =>
      have hrest := ih fun hinside => h (List.infix_cons hinside)
      cases line with
      | nil =>
          rw [List.nil_append] at hrest
          rw [List.cons_append, List.nil_append, findCrlf, if_neg (by simp), hrest]
          rfl
      | cons b line =>
          rw [List.cons_append] at hrest
          rw [List.cons_append, List.cons_append, findCrlf, if_neg, hrest]
          · rfl
          · rintro ⟨rfl, rfl⟩
            exact h ⟨[], line, rfl⟩

/-- A line that is cut before its end is no line. -/
theorem findCrlf_cut (h : ¬ [13, 10] <:+: line) (hrest : rest <+: line ++ 13 :: 10 :: more)
    (hcut : rest.length < line.length + 2) : findCrlf rest = none := by
  refine findCrlf_eq_none fun hinside => ?_
  have hprefix : rest <+: line ++ [13] :=
    List.prefix_of_prefix_length_le hrest ⟨10 :: more, by simp⟩ (by simp; omega)
  rcases List.infix_concat_iff.mp (hinside.trans hprefix.isInfix) with hsuffix | hline
  · obtain ⟨s, hs⟩ := hsuffix
    have hlast := congrArg List.getLast? hs
    simp at hlast
  · exact h hline

end LineEnds

section Remaining

variable {input rest : List UInt8} {checks : Bool} {i p n fuel : Nat} {out : List UInt8}

/-- The size line at the front: its length, and the size. -/
def header (rest : List UInt8) : Option (Nat × Nat) :=
  (findCrlf rest).bind fun p => (chunkSize (rest.take p)).map fun n => (p, n)

theorem header_bound (h : header rest = some (p, n)) : p + 2 ≤ rest.length := by
  obtain ⟨q, hq, hsize⟩ := Option.bind_eq_some_iff.mp h
  obtain ⟨m, _, heq⟩ := Option.map_eq_some_iff.mp hsize
  cases heq
  exact findCrlf_bound hq

theorem sizeLine_eq_header (input : List UInt8) (i : Nat) :
    sizeLine input i = (header (input.drop i)).map fun h => (i + h.1, h.2) := by
  unfold sizeLine header
  by_cases hi : i < input.length
  · rw [if_pos hi]
    cases findCrlf (input.drop i) with
    | none =>
        rfl
    | some p =>
        cases hsize : chunkSize ((input.drop i).take p) with
        | none =>
            simp [hsize]
        | some n =>
            simp [hsize]
  · rw [if_neg hi, List.drop_of_length_le (by omega)]
    rfl

/-- The decoder over the bytes that remain behind a cursor. -/
def decodeRest (checks : Bool) (i : Nat) (rest : List UInt8) : Except Panic (List UInt8) :=
  match h : header rest with
  | none => .ok []
  | some (p, n) =>
      if n = 0 then .ok []
      else if 2 ^ 64 ≤ i + p + 2 + n then
        .error (if checks then .addOverflow else .sliceIndex)
      else if rest.length < p + 2 + n then .ok []
      else do
        let out ← decodeRest checks (i + p + 2 + n + 2) (rest.drop (p + 2 + n + 2))
        return (rest.drop (p + 2)).take n ++ out
termination_by rest.length
decreasing_by
  have := header_bound h
  rw [List.length_drop]
  omega

theorem decodeRest_of_none (h : header rest = none) : decodeRest checks i rest = .ok [] := by
  rw [decodeRest]
  split
  · rfl
  · rename_i hsome
    rw [h] at hsome
    cases hsome

theorem decodeRest_of_some (h : header rest = some (p, n)) :
    decodeRest checks i rest =
      if n = 0 then .ok []
      else if 2 ^ 64 ≤ i + p + 2 + n then
        .error (if checks then .addOverflow else .sliceIndex)
      else if rest.length < p + 2 + n then .ok []
      else do
        let out ← decodeRest checks (i + p + 2 + n + 2) (rest.drop (p + 2 + n + 2))
        return (rest.drop (p + 2)).take n ++ out := by
  rw [decodeRest]
  split
  · rename_i hnone
    rw [h] at hnone
    cases hnone
  · rename_i hsome
    cases h.symm.trans hsome
    rfl

/-- The loop is the decoder over what is left of the input. -/
theorem decodeLoop_eq_rest (hlen : input.length < 2 ^ 63) (fuel i : Nat) (out : List UInt8)
    (hfuel : input.length ≤ i + fuel) :
    decodeLoop checks input (fuel + 1) i out =
      (decodeRest checks i (input.drop i)).map fun more => out ++ more := by
  induction fuel generalizing i out with
  | zero =>
      have hdrop : input.drop i = [] := List.drop_of_length_le (by omega)
      rw [decodeLoop_succ hlen, sizeLine_eq_header, hdrop, decodeRest_of_none rfl]
      simp [header, findCrlf, Except.map]
  | succ fuel ih =>
      rw [decodeLoop_succ hlen, sizeLine_eq_header]
      cases hhead : header (input.drop i) with
      | none =>
          rw [decodeRest_of_none hhead]
          simp [Except.map]
      | some found =>
          obtain ⟨p, n⟩ := found
          have hbound := header_bound hhead
          rw [List.length_drop] at hbound
          rw [decodeRest_of_some hhead]
          dsimp only [Option.map_some]
          by_cases hzero : n = 0
          · rw [if_pos hzero, if_pos hzero]
            simp [Except.map]
          · rw [if_neg hzero, if_neg hzero]
            by_cases hover : 2 ^ 64 ≤ i + p + 2 + n
            · rw [if_pos hover, if_pos hover]
              cases checks with
              | true =>
                  rfl
              | false =>
                  rfl
            · rw [if_neg hover, if_neg hover, List.length_drop]
              by_cases hlong : input.length < i + p + 2 + n
              · rw [if_pos hlong, if_pos (by omega)]
                simp [Except.map]
              · rw [if_neg hlong, if_neg (by omega), ih _ _ (by omega), List.drop_drop,
                  List.drop_drop]
                rw [show i + (p + 2 + n + 2) = i + p + 2 + n + 2 by omega,
                  show i + (p + 2) = i + p + 2 by omega]
                cases decodeRest checks (i + p + 2 + n + 2) (input.drop (i + p + 2 + n + 2)) with
                | error e =>
                    rfl
                | ok more =>
                    simp [Except.map, bind, Except.bind, pure, Except.pure]

theorem decodeChunked_eq_rest (hlen : input.length < 2 ^ 63) :
    decodeChunked checks input = decodeRest checks 0 input := by
  rw [decodeChunked, decodeLoop_eq_rest hlen input.length 0 [] (by omega), List.drop_zero]
  cases decodeRest checks 0 input with
  | error e =>
      rfl
  | ok out =>
      rfl

end Remaining

section Chunks

/-- A chunk: a size line, and as many bytes as it says. -/
structure Chunk where
  line : SizeLine
  data : List UInt8
  data_ne_nil : data ≠ []
  announced : line.value = data.length

namespace Chunk

/-- The bytes of a chunk. -/
def bytes (c : Chunk) : List UInt8 :=
  c.line.bytes ++ 13 :: 10 :: (c.data ++ [13, 10])

/-- Where the data of a chunk begin. -/
def start (c : Chunk) (i : Nat) : Nat := i + c.line.bytes.length + 2

/-- Where the next size line begins. -/
def next (c : Chunk) (i : Nat) : Nat := c.start i + c.data.length + 2

end Chunk

/-- The payload of the chunks. -/
def payload (chunks : List Chunk) : List UInt8 := chunks.flatMap Chunk.data

/-- The bytes of the chunks, before those of the end. -/
def encode (chunks : List Chunk) (ending : List UInt8) : List UInt8 :=
  chunks.flatMap Chunk.bytes ++ ending

/-- A chunked body: the chunks, the zero chunk and the trailer. -/
structure Body where
  chunks : List Chunk
  last : SizeLine
  trailer : List UInt8
  last_zero : last.value = 0

namespace Body

/-- The zero chunk and the trailer. -/
def ending (body : Body) : List UInt8 :=
  body.last.bytes ++ 13 :: 10 :: body.trailer

/-- The encoding. -/
def bytes (body : Body) : List UInt8 := encode body.chunks body.ending

end Body

variable {checks : Bool} {i : Nat} {c : Chunk} {rest more r : List UInt8}

/-- A prefix of a concatenation ends in the first part or reaches into the second. -/
theorem prefix_append_cases {l : List UInt8} (h : rest <+: l ++ more) :
    rest.length < l.length ∨ ∃ r, rest = l ++ r ∧ r <+: more := by
  by_cases hshort : rest.length < l.length
  · exact Or.inl hshort
  · obtain ⟨r, rfl⟩ := List.prefix_of_prefix_length_le (List.prefix_append l more) h (by omega)
    exact Or.inr ⟨r, rfl, (List.prefix_append_right_inj l).mp h⟩

theorem header_line (line : SizeLine) (more : List UInt8) :
    header (line.bytes ++ 13 :: 10 :: more) =
      if line.Readable ∧ line.value < 2 ^ 64 then some (line.bytes.length, line.value)
      else none := by
  rw [header, findCrlf_line line.crlf_bytes, Option.bind_some, List.take_left,
    line.chunkSize_bytes]
  split
  · rfl
  · rfl

/-- In the middle of a size line there is nothing to decode. -/
theorem decodeRest_cut (line : SizeLine) (h : rest <+: line.bytes ++ 13 :: 10 :: more)
    (hcut : rest.length < line.bytes.length + 2) : decodeRest checks i rest = .ok [] := by
  refine decodeRest_of_none ?_
  rw [header, findCrlf_cut line.crlf_bytes h hcut]
  rfl

theorem decodeRest_unread (line : SizeLine) (h : ¬ (line.Readable ∧ line.value < 2 ^ 64)) :
    decodeRest checks i (line.bytes ++ 13 :: 10 :: more) = .ok [] := by
  refine decodeRest_of_none ?_
  rw [header_line, if_neg h]

theorem header_chunk (hread : c.line.Readable) (hsmall : c.data.length < 2 ^ 64) :
    header (c.line.bytes ++ 13 :: 10 :: r) = some (c.line.bytes.length, c.data.length) := by
  rw [header_line, c.announced, if_pos ⟨hread, hsmall⟩]

theorem decodeRest_over (hread : c.line.Readable) (hsmall : c.data.length < 2 ^ 64)
    (hover : 2 ^ 64 ≤ c.start i + c.data.length) :
    decodeRest checks i (c.line.bytes ++ 13 :: 10 :: r) =
      .error (if checks then .addOverflow else .sliceIndex) := by
  have hdata : c.data.length ≠ 0 := fun h => c.data_ne_nil (List.length_eq_zero_iff.mp h)
  rw [Chunk.start] at hover
  rw [decodeRest_of_some (header_chunk hread hsmall), if_neg hdata, if_pos hover]

/-- A chunk that is not there as a whole is left out. -/
theorem decodeRest_short (hread : c.line.Readable) (hend : c.start i + c.data.length < 2 ^ 64)
    (hshort : r.length < c.data.length) :
    decodeRest checks i (c.line.bytes ++ 13 :: 10 :: r) = .ok [] := by
  have hdata : c.data.length ≠ 0 := by omega
  have hfit : ¬ 2 ^ 64 ≤ i + c.line.bytes.length + 2 + c.data.length := by
    rw [Chunk.start] at hend
    omega
  rw [decodeRest_of_some (header_chunk hread (by omega)), if_neg hdata, if_neg hfit, if_pos]
  rw [List.length_append, List.length_cons, List.length_cons]
  omega

/-- A whole chunk is copied, and the decoding goes on behind it. -/
theorem decodeRest_chunk (hread : c.line.Readable) (hend : c.start i + c.data.length < 2 ^ 64) :
    decodeRest checks i (c.line.bytes ++ 13 :: 10 :: (c.data ++ r)) =
      (decodeRest checks (c.next i) (r.drop 2)).map fun out => c.data ++ out := by
  have hdata : c.data.length ≠ 0 := fun h => c.data_ne_nil (List.length_eq_zero_iff.mp h)
  have hfit : ¬ 2 ^ 64 ≤ i + c.line.bytes.length + 2 + c.data.length := by
    rw [Chunk.start] at hend
    omega
  have hdrop : (c.line.bytes ++ 13 :: 10 :: (c.data ++ r)).drop (c.line.bytes.length + 2) =
      c.data ++ r := by
    rw [List.drop_append]
    simp
  have hskip : (c.line.bytes ++ 13 :: 10 :: (c.data ++ r)).drop
      (c.line.bytes.length + 2 + c.data.length + 2) = r.drop 2 := by
    rw [show c.line.bytes.length + 2 + c.data.length + 2 =
      (c.line.bytes.length + 2) + (c.data.length + 2) by omega, ← List.drop_drop, hdrop,
      List.drop_append]
    simp
  rw [decodeRest_of_some (header_chunk hread (by omega)), if_neg hdata, if_neg hfit, if_neg,
    hdrop, hskip, List.take_left]
  · rw [Chunk.next, Chunk.start]
    cases decodeRest checks (i + c.line.bytes.length + 2 + c.data.length + 2) (r.drop 2) with
    | error e =>
        rfl
    | ok out =>
        rfl
  · simp only [List.length_append, List.length_cons]
    omega

end Chunks

section Inverse

variable {checks : Bool} {i : Nat} {c : Chunk} {chunks : List Chunk} {ending : List UInt8}

/-- What the decoder makes of the prefixes of an encoding, from a cursor on: prefixes of
the payload, and of the whole encoding the payload. -/
def Inverts (checks : Bool) (i : Nat) (chunks : List Chunk) (ending : List UInt8) : Prop :=
  ∀ rest, rest <+: encode chunks ending → i + rest.length < 2 ^ 63 →
    ∃ out, decodeRest checks i rest = .ok out ∧ out <+: payload chunks ∧
      (rest = encode chunks ending → out = payload chunks)

/-- No size line that is read announces a chunk that ends outside of the address
space. -/
def EndsFit : Nat → List Chunk → Prop
  | _, [] => True
  | i, c :: chunks =>
      c.line.Readable →
        (c.start i < 2 ^ 63 → c.data.length < 2 ^ 64 → c.start i + c.data.length < 2 ^ 64) ∧
          EndsFit (c.next i) chunks

theorem encode_cons (c : Chunk) (chunks : List Chunk) (ending : List UInt8) :
    encode (c :: chunks) ending =
      c.line.bytes ++ 13 :: 10 :: (c.data ++ 13 :: 10 :: encode chunks ending) := by
  simp [encode, Chunk.bytes]

theorem payload_cons (c : Chunk) (chunks : List Chunk) :
    payload (c :: chunks) = c.data ++ payload chunks := rfl

theorem payload_cons_ne_nil (c : Chunk) (chunks : List Chunk) : payload (c :: chunks) ≠ [] := by
  simp [payload_cons, c.data_ne_nil]

theorem length_encode_cons (c : Chunk) (chunks : List Chunk) (ending : List UInt8) :
    i + (encode (c :: chunks) ending).length = c.next i + (encode chunks ending).length := by
  rw [encode_cons, Chunk.next, Chunk.start]
  simp only [List.length_append, List.length_cons]
  omega

/-- Of the zero chunk and the trailer nothing is copied. -/
theorem decodeRest_ending (body : Body) {rest : List UInt8} (h : rest <+: body.ending) :
    decodeRest checks i rest = .ok [] := by
  by_cases hcut : rest.length < body.last.bytes.length + 2
  · exact decodeRest_cut body.last h hcut
  · have hending : body.ending = (body.last.bytes ++ [13, 10]) ++ body.trailer := by
      simp [Body.ending]
    rw [hending] at h
    rcases prefix_append_cases h with hshort | ⟨r, rfl, _⟩
    · rw [List.length_append] at hshort
      exact absurd hshort hcut
    · rw [List.append_assoc]
      by_cases hread : body.last.Readable ∧ body.last.value < 2 ^ 64
      · rw [List.cons_append, List.cons_append, List.nil_append,
          decodeRest_of_some (by rw [header_line, if_pos hread]), if_pos body.last_zero]
      · exact decodeRest_unread body.last hread

theorem inverts_nil (body : Body) : Inverts checks i [] body.ending := by
  intro rest hrest _
  exact ⟨[], decodeRest_ending body hrest, List.nil_prefix, fun _ => rfl⟩

/-- Behind a chunk whose size line is not read there is no way on. -/
theorem inverts_unread (h : ¬ c.line.Readable) :
    Inverts checks i (c :: chunks) ending ↔
      2 ^ 63 ≤ i + (encode (c :: chunks) ending).length := by
  have hnil : ∀ rest, rest <+: encode (c :: chunks) ending → decodeRest checks i rest = .ok [] := by
    intro rest hrest
    rw [encode_cons] at hrest
    by_cases hcut : rest.length < c.line.bytes.length + 2
    · exact decodeRest_cut c.line hrest hcut
    · rw [List.append_cons, List.append_cons] at hrest
      rcases prefix_append_cases hrest with hshort | ⟨r, rfl, _⟩
      · simp only [List.length_append, List.length_singleton] at hshort
        exact absurd hshort hcut
      · rw [← List.append_cons, ← List.append_cons]
        exact decodeRest_unread c.line fun hread => h hread.1
  constructor
  · intro hinv
    by_contra hlong
    obtain ⟨out, hout, _, hwhole⟩ := hinv _ (List.prefix_refl _) (by omega)
    rw [hnil _ (List.prefix_refl _)] at hout
    cases hout
    exact payload_cons_ne_nil c chunks (hwhole rfl).symm
  · intro hlong rest hrest hsmall
    refine ⟨[], hnil rest hrest, List.nil_prefix, ?_⟩
    rintro rfl
    omega

/-- The prefixes that reach behind the size line of a chunk. -/
theorem inverts_data (h : c.line.Readable)
    (hfit : c.start i < 2 ^ 63 → c.data.length < 2 ^ 64 → c.start i + c.data.length < 2 ^ 64)
    (hinv : Inverts checks (c.next i) chunks ending) {r : List UInt8}
    (hrest : c.line.bytes ++ 13 :: 10 :: r <+: encode (c :: chunks) ending)
    (hsmall : i + (c.line.bytes ++ 13 :: 10 :: r).length < 2 ^ 63) :
    ∃ out, decodeRest checks i (c.line.bytes ++ 13 :: 10 :: r) = .ok out ∧
      out <+: payload (c :: chunks) ∧
      (c.line.bytes ++ 13 :: 10 :: r = encode (c :: chunks) ending →
        out = payload (c :: chunks)) := by
  have hr : r <+: c.data ++ 13 :: 10 :: encode chunks ending := by
    rw [encode_cons] at hrest
    simpa using hrest
  have hwhole : c.line.bytes ++ 13 :: 10 :: r = encode (c :: chunks) ending →
      r = c.data ++ 13 :: 10 :: encode chunks ending := by
    rw [encode_cons]
    intro heq
    simpa using heq
  have hstart : c.start i + r.length < 2 ^ 63 := by
    rw [Chunk.start]
    simp only [List.length_append, List.length_cons] at hsmall
    omega
  rcases prefix_append_cases hr with hshort | ⟨r, rfl, hmore⟩
  · -- the data are cut, or the size is not a 64-bit number
    refine ⟨[], ?_, List.nil_prefix, ?_⟩
    · by_cases hsize : c.data.length < 2 ^ 64
      · exact decodeRest_short h (hfit (by omega) hsize) hshort
      · refine decodeRest_unread c.line fun hread => ?_
        exact hsize (c.announced ▸ hread.2)
    · intro heq
      rw [hwhole heq, List.length_append] at hshort
      omega
  · have hend : c.start i + c.data.length < 2 ^ 64 := by
      rw [List.length_append] at hstart
      omega
    rw [decodeRest_chunk h hend]
    by_cases hskip : r.length < 2
    · -- the input ends in the line end behind the data
      have hdrop : r.drop 2 = [] := List.drop_of_length_le (by omega)
      rw [hdrop, decodeRest_of_none rfl]
      refine ⟨c.data ++ [], rfl, ?_, ?_⟩
      · rw [payload_cons, List.append_nil]
        exact List.prefix_append _ _
      · intro heq
        have hlen := congrArg List.length (List.append_cancel_left (hwhole heq))
        simp only [List.length_cons] at hlen
        omega
    · have hdrop : r.drop 2 <+: encode chunks ending := by
        obtain ⟨t, ht⟩ := hmore
        refine ⟨t, ?_⟩
        rw [← List.drop_append_of_le_length (by omega), ht]
        rfl
      obtain ⟨out, hout, hpre, hout'⟩ := hinv (r.drop 2) hdrop (by
        rw [Chunk.next, List.length_drop]
        rw [List.length_append] at hstart
        omega)
      rw [hout]
      refine ⟨c.data ++ out, rfl, (List.prefix_append_right_inj c.data).mpr hpre, ?_⟩
      intro heq
      rw [payload_cons, hout' (by rw [List.append_cancel_left (hwhole heq)]; rfl)]

/-- Past a chunk whose size line is read. -/
theorem inverts_read (h : c.line.Readable) :
    Inverts checks i (c :: chunks) ending ↔
      (c.start i < 2 ^ 63 → c.data.length < 2 ^ 64 → c.start i + c.data.length < 2 ^ 64) ∧
        Inverts checks (c.next i) chunks ending := by
  constructor
  · intro hinv
    constructor
    · intro hstart hsize
      by_contra hover
      -- the input that ends with the size line
      have hprefix : c.line.bytes ++ [13, 10] <+: encode (c :: chunks) ending := by
        rw [encode_cons]
        exact ⟨c.data ++ 13 :: 10 :: encode chunks ending, by simp⟩
      obtain ⟨out, hout, _⟩ := hinv _ hprefix (by
        rw [Chunk.start] at hstart
        simp only [List.length_append, List.length_cons, List.length_nil]
        omega)
      rw [decodeRest_over h hsize (by omega)] at hout
      cases hout
    · intro rest hrest hsmall
      have hend : c.start i + c.data.length < 2 ^ 64 := by
        rw [Chunk.next] at hsmall
        omega
      have hprefix : c.line.bytes ++ 13 :: 10 :: (c.data ++ 13 :: 10 :: rest) <+:
          encode (c :: chunks) ending := by
        rw [encode_cons]
        simpa using hrest
      obtain ⟨out, hout, hpre, hwhole⟩ := hinv _ hprefix (by
        rw [Chunk.next, Chunk.start] at hsmall
        simp only [List.length_append, List.length_cons]
        omega)
      rw [decodeRest_chunk h hend, List.drop_succ_cons, List.drop_succ_cons,
        List.drop_zero] at hout
      cases hrest' : decodeRest checks (c.next i) rest with
      | error e =>
          rw [hrest'] at hout
          cases hout
      | ok out' =>
          rw [hrest'] at hout
          cases hout
          refine ⟨out', rfl, (List.prefix_append_right_inj c.data).mp hpre, ?_⟩
          rintro rfl
          exact List.append_cancel_left (hwhole (encode_cons c chunks ending).symm)
  · rintro ⟨hfit, hinv⟩ rest hrest hsmall
    by_cases hcut : rest.length < c.line.bytes.length + 2
    · refine ⟨[], ?_, List.nil_prefix, ?_⟩
      · rw [encode_cons] at hrest
        exact decodeRest_cut c.line hrest hcut
      · rintro rfl
        rw [encode_cons, List.length_append, List.length_cons, List.length_cons] at hcut
        omega
    · have hline : c.line.bytes ++ [13, 10] <+: rest :=
        List.prefix_of_prefix_length_le (by rw [encode_cons]; simp) hrest (by simp; omega)
      obtain ⟨r, rfl⟩ := hline
      rw [List.append_assoc, List.cons_append, List.cons_append, List.nil_append] at *
      exact inverts_data h hfit hinv hrest hsmall

/-- The decoder is an inverse exactly then. -/
theorem inverts_iff (body : Body) (chunks : List Chunk) (i : Nat) :
    Inverts checks i chunks body.ending ↔
      EndsFit i chunks ∧
        (i + (encode chunks body.ending).length < 2 ^ 63 → ∀ c ∈ chunks, c.line.Readable) := by
  induction chunks generalizing i with
  | nil =>
      exact iff_of_true (inverts_nil body) ⟨trivial, by simp⟩
  | cons c chunks ih =>
      by_cases hread : c.line.Readable
      · rw [inverts_read hread, ih, ← length_encode_cons]
        simp only [EndsFit, hread, List.forall_mem_cons, true_and, forall_const, and_assoc]
      · rw [inverts_unread hread]
        simp only [EndsFit, hread, List.forall_mem_cons, false_and, false_imp_iff, true_and,
          imp_false, Nat.not_lt]

/-- On the prefixes of an encoding the decoder returns prefixes of the payload, and on
the encoding the payload, if and only if the extensions are texts and no chunk that is
announced ends outside of the address space. -/
theorem decode_chunked_inverts_iff (checks : Bool) (body : Body) :
    (∀ input, input <+: body.bytes → input.length < 2 ^ 63 →
        ∃ out, decodeChunked checks input = .ok out ∧ out <+: payload body.chunks ∧
          (input = body.bytes → out = payload body.chunks)) ↔
      EndsFit 0 body.chunks ∧
        (body.bytes.length < 2 ^ 63 → ∀ c ∈ body.chunks, c.line.Readable) := by
  have hiff := @inverts_iff checks body body.chunks 0
  rw [Nat.zero_add] at hiff
  rw [Body.bytes, ← hiff]
  constructor
  · intro h rest hrest hsmall
    rw [Nat.zero_add] at hsmall
    rw [← decodeChunked_eq_rest hsmall]
    exact h rest hrest hsmall
  · intro h input hinput hlen
    rw [decodeChunked_eq_rest hlen]
    exact h input hinput (by omega)

/-- `1;` and a byte that no text contains, one byte of data, and the end. -/
def latinBody : Body where
  chunks := [
    { line := ⟨[(1, false)], [59, 233], by decide, by simp, by decide⟩
      data := [97]
      data_ne_nil := by decide
      announced := rfl }]
  last := ⟨[(0, false)], [], by decide, by simp, by decide⟩
  trailer := [13, 10]
  last_zero := rfl

/-- An extension that is not UTF-8 hides the size in front of it. -/
theorem latin_extension_loses_payload :
    payload latinBody.chunks = [97] ∧ decodeChunked true latinBody.bytes = .ok [] ∧
      decodeChunked false latinBody.bytes = .ok [] := by
  decide

end Inverse

end DockerStats
end Worker
end ZeroVpn
