import Mathlib.Algebra.Group.Nat.Defs
import Mathlib.Algebra.GroupWithZero.Nat
import ZeroVpn.Library.JsonText

/-!
# JSON texts as bytes

The UTF-8 encoding of the compact text of a JSON tree.  No byte of it is a line
feed, so that a line feed ends a message; and its length is bounded by the number
of characters in the strings of the tree, each of which takes at most six bytes.
-/

namespace ZeroVpn
namespace Library
namespace Json

/-- The bytes of a text. -/
def utf8 (cs : List Char) : List UInt8 := cs.flatMap String.utf8EncodeChar

/-- The bytes of the text of a tree. -/
def bytes (j : Json) : List UInt8 := utf8 (write j)

section LineFeed

/-- Only a line feed has a byte of that value. -/
theorem eq_of_mem_utf8EncodeChar {c : Char} (h : (10 : UInt8) ∈ String.utf8EncodeChar c) :
    c = '\n' := by
  have hbyte : ∀ n : Nat, (10 : UInt8) = UInt8.ofNat n → n % 256 = 10 := by
    intro n hn
    have hnat := congrArg UInt8.toNat hn
    rw [UInt8.toNat_ofNat'] at hnat
    exact hnat.symm
  unfold String.utf8EncodeChar at h
  simp only at h
  split at h
  · have hc := hbyte _ (List.mem_singleton.mp h)
    have hval : c.val.toNat = 10 := by omega
    exact Char.ext (UInt32.toNat.inj hval)
  all_goals
    exfalso
    split at h
    · simp only [List.mem_cons, List.not_mem_nil, or_false] at h
      rcases h with h | h <;> have := hbyte _ h <;> omega
    · split at h
      · simp only [List.mem_cons, List.not_mem_nil, or_false] at h
        rcases h with h | h | h <;> have := hbyte _ h <;> omega
      · simp only [List.mem_cons, List.not_mem_nil, or_false] at h
        rcases h with h | h | h | h <;> have := hbyte _ h <;> omega

theorem hexDigit_ne_newline : ∀ n : Fin 16, hexDigit n.val ≠ '\n' := by
  decide

theorem newline_not_mem_escape (c : Char) : '\n' ∉ escape c := by
  unfold escape
  repeat' split
  all_goals try decide
  · rename_i hlow
    have hhigh : c.toNat / 16 < 16 := by omega
    have hlast : c.toNat % 16 < 16 := by omega
    have h₁ := hexDigit_ne_newline ⟨_, hhigh⟩
    have h₂ := hexDigit_ne_newline ⟨_, hlast⟩
    simp only [List.mem_cons, List.not_mem_nil, or_false, not_or]
    exact ⟨by decide, by decide, by decide, by decide, h₁.symm, h₂.symm⟩
  · rename_i hnewline _ _ _
    exact fun h => hnewline (List.mem_singleton.mp h).symm

theorem newline_not_mem_quote (s : String) : '\n' ∉ quote s := by
  unfold quote
  simp only [List.mem_cons, List.mem_append, List.mem_flatMap, List.not_mem_nil, or_false, not_or]
  refine ⟨by decide, ?_, by decide⟩
  rintro ⟨c, _, hc⟩
  exact newline_not_mem_escape c hc

theorem newline_not_mem_toString (n : Int) : '\n' ∉ (toString n).toList := by
  have hnat : ∀ n : Nat, '\n' ∉ (toString n).toList := by
    intro n h
    have hdigit := all_isDigit_toString n _ h
    revert hdigit
    decide
  cases n with
  | ofNat n =>
      exact hnat n
  | negSucc n =>
      rw [toString_negSucc]
      intro h
      rcases List.mem_cons.mp h with h | h
      · revert h
        decide
      · exact hnat _ h

theorem newline_not_mem_intercalate {words : List (List Char)} (h : ∀ w ∈ words, '\n' ∉ w) :
    '\n' ∉ [','].intercalate words := by
  cases words with
  | nil =>
      exact List.not_mem_nil
  | cons w words =>
      have hwords := intercalate_cons (fun w : List Char => w) w words
      rw [List.map_id'] at hwords
      rw [hwords]
      simp only [List.mem_append, List.mem_flatMap, List.mem_cons, not_or]
      refine ⟨h w List.mem_cons_self, ?_⟩
      rintro ⟨w', hw', hcomma | hmem⟩
      · revert hcomma
        decide
      · exact h w' (List.mem_cons_of_mem _ hw') hmem

theorem newline_not_mem_write (j : Json) : '\n' ∉ write j := by
  induction j using induct with
  | null =>
      decide
  | bool b =>
      cases b <;> decide
  | num n =>
      exact newline_not_mem_toString n
  | str s =>
      exact newline_not_mem_quote s
  | arr items ih =>
      rw [write_arr, writeItems_eq]
      have hitems : '\n' ∉ [','].intercalate (items.map write) :=
        newline_not_mem_intercalate fun w hw => by
          obtain ⟨j, hj, rfl⟩ := List.mem_map.mp hw
          exact ih j hj
      simp [hitems]
  | obj fields ih =>
      rw [write_obj, writeFields_eq]
      have hfields : '\n' ∉ [','].intercalate (fields.map writeField) :=
        newline_not_mem_intercalate fun w hw => by
          obtain ⟨entry, hentry, rfl⟩ := List.mem_map.mp hw
          rw [writeField_eq]
          simp [newline_not_mem_quote, ih entry hentry]
      simp [hfields]

/-- A line feed ends a message. -/
theorem newline_not_mem_bytes (j : Json) : (10 : UInt8) ∉ bytes j := by
  intro h
  obtain ⟨c, hc, hbyte⟩ := List.mem_flatMap.mp h
  rw [eq_of_mem_utf8EncodeChar hbyte] at hc
  exact newline_not_mem_write j hc

end LineFeed

section Length

theorem length_utf8_append (cs ds : List Char) :
    (utf8 (cs ++ ds)).length = (utf8 cs).length + (utf8 ds).length := by
  rw [utf8, List.flatMap_append, List.length_append]
  rfl

theorem length_utf8_cons (c : Char) (cs : List Char) :
    (utf8 (c :: cs)).length = c.utf8Size + (utf8 cs).length := by
  rw [utf8, List.flatMap_cons, List.length_append, String.length_utf8EncodeChar]
  rfl

/-- A character takes at most four bytes. -/
theorem length_utf8_le (cs : List Char) : (utf8 cs).length ≤ 4 * cs.length := by
  induction cs with
  | nil =>
      exact Nat.zero_le _
  | cons c cs ih =>
      have hc := c.utf8Size_le_four
      rw [length_utf8_cons, List.length_cons]
      omega

/-- Escaped, it takes at most six. -/
theorem length_utf8_escape (c : Char) : (utf8 (escape c)).length ≤ 6 := by
  have hhex : ∀ n : Fin 16, (hexDigit n.val).utf8Size = 1 := by
    decide
  unfold escape
  repeat' split
  all_goals try decide
  · rename_i hlow
    have hhigh : c.toNat / 16 < 16 := by omega
    have hlast : c.toNat % 16 < 16 := by omega
    have h₁ := hhex ⟨_, hhigh⟩
    have h₂ := hhex ⟨_, hlast⟩
    simp only [length_utf8_cons, h₁, h₂]
    decide
  · have hc := c.utf8Size_le_four
    have hnil : (utf8 []).length = 0 := rfl
    rw [length_utf8_cons, hnil]
    omega

theorem length_utf8_quote (s : String) : (utf8 (quote s)).length ≤ 6 * s.toList.length + 2 := by
  have hquote : '"'.utf8Size = 1 := by decide
  have hlast : (utf8 ['"']).length = 1 := by decide
  have hbody : ∀ cs : List Char, (utf8 (cs.flatMap escape)).length ≤ 6 * cs.length := by
    intro cs
    induction cs with
    | nil =>
        exact Nat.zero_le _
    | cons c cs ih =>
        have hc := length_utf8_escape c
        rw [List.flatMap_cons, length_utf8_append, List.length_cons]
        omega
  have hs := hbody s.toList
  rw [quote, length_utf8_cons, length_utf8_append, hquote, hlast]
  omega

theorem length_utf8_words (words : List (List Char)) :
    (utf8 (words.flatMap fun w => ',' :: w)).length =
      (words.map fun w => (utf8 w).length + 1).sum := by
  have hcomma : ','.utf8Size = 1 := by decide
  induction words with
  | nil =>
      rfl
  | cons w words ih =>
      rw [List.flatMap_cons, length_utf8_append, length_utf8_cons, hcomma, ih, List.map_cons,
        List.sum_cons]
      omega

theorem length_utf8_intercalate (words : List (List Char)) :
    (utf8 ([','].intercalate words)).length ≤ (words.map fun w => (utf8 w).length + 1).sum := by
  cases words with
  | nil =>
      exact Nat.zero_le _
  | cons w words =>
      have hwords := intercalate_cons (fun w : List Char => w) w words
      rw [List.map_id'] at hwords
      rw [hwords, length_utf8_append, length_utf8_words, List.map_cons, List.sum_cons]
      omega

theorem length_bytes_str (s : String) : (bytes (.str s)).length ≤ 6 * s.toList.length + 2 := by
  rw [bytes, write_str]
  exact length_utf8_quote s

theorem length_bytes_bool (b : Bool) : (bytes (.bool b)).length ≤ 5 := by
  cases b <;> decide

theorem length_bytes_null : (bytes .null).length ≤ 4 := by
  decide

theorem length_bytes_num {n k : Nat} (hk : 0 < k) (h : n < 10 ^ k) :
    (bytes (.num n)).length ≤ 4 * k := by
  have hdigits : (toString (n : Int)).toList.length ≤ k := by
    change (Nat.repr n).toList.length ≤ k
    rw [String.length_toList]
    exact (Nat.length_repr_le_iff hk).mpr h
  have hlength := length_utf8_le (toString (n : Int)).toList
  rw [bytes, write_num]
  omega

theorem length_bytes_arr {items : List Json} {b : Nat} (h : ∀ j ∈ items, (bytes j).length ≤ b) :
    (bytes (.arr items)).length ≤ items.length * (b + 1) + 2 := by
  have hopen : '['.utf8Size = 1 := by decide
  have hclose : (utf8 [']']).length = 1 := by decide
  have hsum : ((items.map write).map fun w => (utf8 w).length + 1).sum ≤
      items.length * (b + 1) := by
    induction items with
    | nil =>
        exact Nat.zero_le _
    | cons j items ih =>
        have hj : (utf8 (write j)).length ≤ b := h j List.mem_cons_self
        have htail := ih fun j' hj' => h j' (List.mem_cons_of_mem _ hj')
        simp only [List.map_cons, List.sum_cons, List.length_cons, Nat.succ_mul]
        omega
  have hitems := length_utf8_intercalate (items.map write)
  rw [bytes, write_arr, writeItems_eq, length_utf8_cons, length_utf8_append, hopen, hclose]
  omega

theorem length_bytes_obj (fields : List (String × Json)) :
    (bytes (.obj fields)).length ≤ (fields.map fun entry =>
      (utf8 (quote entry.1)).length + (bytes entry.2).length + 2).sum + 2 := by
  have hopen : '\x7b'.utf8Size = 1 := by decide
  have hclose : (utf8 ['\x7d']).length = 1 := by decide
  have hsum : ((fields.map writeField).map fun w => (utf8 w).length + 1) =
      fields.map fun entry => (utf8 (quote entry.1)).length + (bytes entry.2).length + 2 := by
    rw [List.map_map]
    refine List.map_congr_left fun entry _ => ?_
    have hcolon : ':'.utf8Size = 1 := by decide
    rw [Function.comp_apply, writeField_eq, length_utf8_append, length_utf8_cons, hcolon, bytes]
    omega
  have hfields := length_utf8_intercalate (fields.map writeField)
  rw [hsum] at hfields
  rw [bytes, write_obj, writeFields_eq, length_utf8_cons, length_utf8_append, hopen, hclose]
  omega

end Length

end Json
end Library
end ZeroVpn
