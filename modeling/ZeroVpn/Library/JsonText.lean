import ZeroVpn.Library.Json

/-!
# JSON texts

The compact text of a JSON tree and a parser that reads it back.  A text has no
character below the blank: such characters are escaped inside of strings and
stand nowhere else.

`Reader` is what a program assumes of a JSON library: it reads the text of every
tree whose numbers have at most 64 bits and that is nested less than 128 deep.
-/

namespace ZeroVpn
namespace Library
namespace Json

/-- Induction over trees, with the hypothesis for every item and every field. -/
theorem induct {P : Json → Prop} (null : P .null) (bool : ∀ b, P (.bool b))
    (num : ∀ n, P (.num n)) (str : ∀ s, P (.str s))
    (arr : ∀ items, (∀ j ∈ items, P j) → P (.arr items))
    (obj : ∀ fields, (∀ entry ∈ fields, P entry.2) → P (.obj fields)) : ∀ j, P j :=
  @Json.rec P (fun items => ∀ j ∈ items, P j) (fun fields => ∀ entry ∈ fields, P entry.2)
    (fun entry => P entry.2) null bool num str arr obj
    (fun _ h => by cases h)
    (fun _ _ hhead htail => List.forall_mem_cons.mpr ⟨hhead, htail⟩)
    (fun _ h => by cases h)
    (fun _ _ hhead htail => List.forall_mem_cons.mpr ⟨hhead, htail⟩)
    (fun _ _ h => h)

section Writer

def hexDigit (n : Nat) : Char := if n < 10 then Char.ofNat (48 + n) else Char.ofNat (87 + n)

/-- A character of a string in the text. -/
def escape (c : Char) : List Char :=
  if c = '"' then ['\\', '"']
  else if c = '\\' then ['\\', '\\']
  else if c = '\x08' then ['\\', 'b']
  else if c = '\t' then ['\\', 't']
  else if c = '\n' then ['\\', 'n']
  else if c = '\x0c' then ['\\', 'f']
  else if c = '\r' then ['\\', 'r']
  else if c.toNat < 32 then
    ['\\', 'u', '0', '0', hexDigit (c.toNat / 16), hexDigit (c.toNat % 16)]
  else [c]

def quote (s : String) : List Char := '"' :: (s.toList.flatMap escape ++ ['"'])

mutual

/-- The compact text of a tree. -/
def write : Json → List Char
  | .null => "null".toList
  | .bool true => "true".toList
  | .bool false => "false".toList
  | .num n => (toString n).toList
  | .str s => quote s
  | .arr items => '[' :: ([','].intercalate (writeItems items) ++ [']'])
  | .obj fields => '\x7b' :: ([','].intercalate (writeFields fields) ++ ['\x7d'])

def writeItems : List Json → List (List Char)
  | [] => []
  | j :: items => write j :: writeItems items

def writeFields : List (String × Json) → List (List Char)
  | [] => []
  | entry :: fields => writeField entry :: writeFields fields

def writeField : String × Json → List Char
  | (name, j) => quote name ++ ':' :: write j

end

@[simp]
theorem write_null : write .null = "null".toList := rfl

@[simp]
theorem write_true : write (.bool true) = "true".toList := rfl

@[simp]
theorem write_false : write (.bool false) = "false".toList := rfl

theorem write_num (n : Int) : write (.num n) = (toString n).toList := rfl

theorem write_str (s : String) : write (.str s) = quote s := rfl

theorem write_arr (items : List Json) :
    write (.arr items) = '[' :: ([','].intercalate (writeItems items) ++ [']']) := rfl

theorem write_obj (fields : List (String × Json)) :
    write (.obj fields) = '\x7b' :: ([','].intercalate (writeFields fields) ++ ['\x7d']) := rfl

theorem writeItems_eq (items : List Json) : writeItems items = items.map write := by
  induction items with
  | nil =>
      rfl
  | cons j items ih =>
      rw [List.map_cons, ← ih]
      rfl

theorem writeFields_eq (fields : List (String × Json)) :
    writeFields fields = fields.map writeField := by
  induction fields with
  | nil =>
      rfl
  | cons entry fields ih =>
      rw [List.map_cons, ← ih]
      rfl

/-- The text of a tree. -/
def text (j : Json) : String := String.ofList (write j)

end Writer

section Reader

/-- A digit of a hexadecimal number. -/
def hexValue (c : Char) : Option Nat :=
  if '0' ≤ c ∧ c ≤ '9' then some (c.toNat - 48)
  else if 'a' ≤ c ∧ c ≤ 'f' then some (c.toNat - 87)
  else if 'A' ≤ c ∧ c ≤ 'F' then some (c.toNat - 55)
  else none

/-- A string after its opening quote. -/
def readChars : List Char → Option (List Char × List Char)
  | [] => none
  | '"' :: cs => some ([], cs)
  | '\\' :: 'u' :: a :: b :: c :: d :: cs => do
      let n := (← hexValue a) * 4096 + (← hexValue b) * 256 + (← hexValue c) * 16 + (← hexValue d)
      let (s, rest) ← readChars cs
      some (Char.ofNat n :: s, rest)
  | '\\' :: c :: cs => do
      let c ← match c with
        | '"' => some '"'
        | '\\' => some '\\'
        | '/' => some '/'
        | 'b' => some '\x08'
        | 't' => some '\t'
        | 'n' => some '\n'
        | 'f' => some '\x0c'
        | 'r' => some '\r'
        | _ => none
      let (s, rest) ← readChars cs
      some (c :: s, rest)
  | c :: cs => do
      guard (32 ≤ c.toNat ∧ c ≠ '\\')
      let (s, rest) ← readChars cs
      some (c :: s, rest)

variable {β : Type}

/-- The items of a list after the first one, up to the closing bracket. -/
def readTail (item : List Char → Option (β × List Char)) (close : Char) :
    Nat → List Char → Option (List β × List Char)
  | 0, _ => none
  | _ + 1, [] => none
  | n + 1, c :: cs =>
      if c = close then some ([], cs)
      else if c = ',' then do
        let (b, cs) ← item cs
        let (bs, cs) ← readTail item close n cs
        some (b :: bs, cs)
      else none

/-- The items of a list after the opening bracket. -/
def readSeq (item : List Char → Option (β × List Char)) (close : Char) (n : Nat) :
    List Char → Option (List β × List Char)
  | [] => none
  | c :: cs =>
      if c = close then some ([], cs)
      else do
        let (b, cs) ← item (c :: cs)
        let (bs, cs) ← readTail item close n cs
        some (b :: bs, cs)

/-- A field of an object. -/
def readField (value : List Char → Option (Json × List Char)) :
    List Char → Option ((String × Json) × List Char)
  | '"' :: cs => do
      let (name, cs) ← readChars cs
      match cs with
      | ':' :: cs =>
          let (j, cs) ← value cs
          some ((String.ofList name, j), cs)
      | _ => none
  | _ => none

/-- An integer without a sign. -/
def readNat (cs : List Char) : Option (Nat × List Char) :=
  let ds := cs.takeWhile Char.isDigit
  if ds = [] then none
  else some (Nat.ofDigitChars 10 ds 0, cs.dropWhile Char.isDigit)

/-- A value; the number bounds the nesting and the lengths. -/
def readValue : Nat → List Char → Option (Json × List Char)
  | 0, _ => none
  | _ + 1, 'n' :: 'u' :: 'l' :: 'l' :: cs => some (.null, cs)
  | _ + 1, 't' :: 'r' :: 'u' :: 'e' :: cs => some (.bool true, cs)
  | _ + 1, 'f' :: 'a' :: 'l' :: 's' :: 'e' :: cs => some (.bool false, cs)
  | _ + 1, '"' :: cs => do
      let (s, cs) ← readChars cs
      some (.str (String.ofList s), cs)
  | n + 1, '[' :: cs => do
      let (items, cs) ← readSeq (readValue n) ']' n cs
      some (.arr items, cs)
  | n + 1, '\x7b' :: cs => do
      let (fields, cs) ← readSeq (readField (readValue n)) '\x7d' n cs
      some (.obj fields, cs)
  | _ + 1, '-' :: cs => do
      let (n, cs) ← readNat cs
      some (.num (-n), cs)
  | _ + 1, cs => do
      let (n, cs) ← readNat cs
      some (.num n, cs)

section Values

variable (n : Nat) (cs : List Char)

theorem readValue_null : readValue (n + 1) ("null".toList ++ cs) = some (.null, cs) := rfl

theorem readValue_true : readValue (n + 1) ("true".toList ++ cs) = some (.bool true, cs) := rfl

theorem readValue_false : readValue (n + 1) ("false".toList ++ cs) = some (.bool false, cs) := rfl

theorem readValue_str : readValue (n + 1) ('"' :: cs) =
    (readChars cs).map fun r => (.str (String.ofList r.1), r.2) := by
  change (readChars cs).bind _ = _
  cases readChars cs <;> rfl

theorem readValue_arr : readValue (n + 1) ('[' :: cs) =
    (readSeq (readValue n) ']' n cs).map fun r => (.arr r.1, r.2) := by
  change (readSeq (readValue n) ']' n cs).bind _ = _
  cases readSeq (readValue n) ']' n cs <;> rfl

theorem readValue_obj : readValue (n + 1) ('\x7b' :: cs) =
    (readSeq (readField (readValue n)) '\x7d' n cs).map fun r => (.obj r.1, r.2) := by
  change (readSeq (readField (readValue n)) '\x7d' n cs).bind _ = _
  cases readSeq (readField (readValue n)) '\x7d' n cs <;> rfl

theorem readValue_neg : readValue (n + 1) ('-' :: cs) =
    (readNat cs).map fun r => (.num (-r.1), r.2) := by
  change (readNat cs).bind _ = _
  cases readNat cs <;> rfl

end Values

/-- The tree of a whole text. -/
def ofText (s : String) : Option Json := do
  let (j, cs) ← readValue s.length s.toList
  if cs = [] then some j else none

section Strings

theorem hexValue_hexDigit : ∀ n : Fin 16, hexValue (hexDigit n.val) = some n.val := by
  decide

theorem readChars_escape {c : Char} {cs s rest : List Char} (h : readChars cs = some (s, rest)) :
    readChars (escape c ++ cs) = some (c :: s, rest) := by
  unfold escape
  split_ifs with h1 h2 h3 h4 h5 h6 h7 h8
  · simp [readChars, h, h1]
  · simp [readChars, h, h2]
  · simp [readChars, h, h3]
  · simp [readChars, h, h4]
  · simp [readChars, h, h5]
  · simp [readChars, h, h6]
  · simp [readChars, h, h7]
  · have hzero : hexValue '0' = some 0 := by decide
    have hhigh := hexValue_hexDigit ⟨c.toNat / 16, by omega⟩
    have hlow := hexValue_hexDigit ⟨c.toNat % 16, by omega⟩
    have hsum : c.toNat / 16 * 16 + c.toNat % 16 = c.toNat := by omega
    simp [readChars, h, hzero, hhigh, hlow, hsum]
  · simp only [List.cons_append, List.nil_append]
    have hplain : guard (32 ≤ c.toNat ∧ c ≠ '\\') = some () := if_pos ⟨by omega, h2⟩
    rw [readChars]
    · rw [hplain, h]
      rfl
    · exact h1
    · rintro a b c' d cs' hc -
      exact h2 hc
    · rintro c' cs' hc -
      exact h2 hc

theorem readChars_flatMap (cs rest : List Char) :
    readChars (cs.flatMap escape ++ '"' :: rest) = some (cs, rest) := by
  induction cs with
  | nil =>
      simp [readChars]
  | cons c cs ih =>
      rw [List.flatMap_cons, List.append_assoc]
      exact readChars_escape ih

end Strings

section Numbers

/-- The rest of a text does not go on with a digit. -/
def Stops (cs : List Char) : Prop := cs.takeWhile Char.isDigit = []

theorem stops_nil : Stops [] := rfl

theorem stops_cons {c : Char} (h : c.isDigit = false) (cs : List Char) : Stops (c :: cs) := by
  unfold Stops
  rw [List.takeWhile_cons, h]
  rfl

theorem all_isDigit_toString (n : Nat) : ∀ c ∈ (toString n).toList, Char.isDigit c = true := by
  intro c hc
  have hdigits : (toString n).toList = Nat.toDigits 10 n := Nat.toList_repr
  rw [hdigits] at hc
  exact Nat.isDigit_of_mem_toDigits (by decide) (by decide) hc

theorem takeWhile_toString (n : Nat) {cs : List Char} (hcs : Stops cs) :
    ((toString n).toList ++ cs).takeWhile Char.isDigit = (toString n).toList := by
  rw [List.takeWhile_append_of_pos (all_isDigit_toString n), hcs, List.append_nil]

theorem dropWhile_toString (n : Nat) {cs : List Char} (hcs : Stops cs) :
    ((toString n).toList ++ cs).dropWhile Char.isDigit = cs := by
  have hsplit : cs.takeWhile Char.isDigit ++ cs.dropWhile Char.isDigit = cs :=
    List.takeWhile_append_dropWhile
  rw [hcs, List.nil_append] at hsplit
  rw [List.dropWhile_append_of_pos (all_isDigit_toString n), hsplit]

theorem ofDigitChars_toString (n : Nat) : Nat.ofDigitChars 10 (toString n).toList 0 = n := by
  have hdigits : (toString n).toList = Nat.toDigits 10 n := Nat.toList_repr
  rw [hdigits, Nat.ofDigitChars_ten_toDigits]

/-- The text of a number starts with a digit. -/
theorem toString_nat_cons (n : Nat) :
    ∃ c cs, (toString n).toList = c :: cs ∧ c.isDigit = true := by
  have hdigits : (toString n).toList = Nat.toDigits 10 n := Nat.toList_repr
  cases h : (toString n).toList with
  | nil =>
      rw [hdigits] at h
      exact absurd h Nat.toDigits_ne_nil
  | cons c cs =>
      exact ⟨c, cs, rfl, all_isDigit_toString n c (by rw [h]; exact List.mem_cons_self)⟩

theorem toString_negSucc (n : Nat) :
    (toString (Int.negSucc n)).toList = '-' :: (toString (n + 1)).toList := by
  have htext : toString (Int.negSucc n) = "-" ++ toString (n + 1) := rfl
  rw [htext, String.toList_append]
  rfl

theorem readNat_toString (n : Nat) {cs : List Char} (hcs : Stops cs) :
    readNat ((toString n).toList ++ cs) = some (n, cs) := by
  unfold readNat
  simp only [takeWhile_toString n hcs, dropWhile_toString n hcs, ofDigitChars_toString]
  obtain ⟨c, ds, hds, _⟩ := toString_nat_cons n
  rw [if_neg (by rw [hds]; exact List.cons_ne_nil c ds)]

/-- A digit is one of ten characters. -/
theorem exists_digit {c : Char} (hc : c.isDigit = true) : ∃ k : Fin 10, c = Char.ofNat (48 + k) := by
  obtain ⟨hlow, hhigh⟩ := Bool.and_eq_true_iff.mp hc
  have hle : 48 ≤ c.toNat := of_decide_eq_true hlow
  have hlt : c.toNat ≤ 57 := of_decide_eq_true hhigh
  refine ⟨⟨c.toNat - 48, by omega⟩, ?_⟩
  rw [Nat.add_sub_cancel' hle, Char.ofNat_toNat]

/-- A number that starts with a digit is no other kind of value. -/
theorem readValue_digit {c : Char} (hc : c.isDigit = true) (n : Nat) (cs : List Char) :
    readValue (n + 1) (c :: cs) = (readNat (c :: cs)).map fun r => (.num r.1, r.2) := by
  obtain ⟨k, rfl⟩ := exists_digit hc
  have hread : readValue (n + 1) (Char.ofNat (48 + k) :: cs) =
      (readNat (Char.ofNat (48 + k) :: cs)).bind fun r => some (.num r.1, r.2) := by
    match k with
    | 0 | 1 | 2 | 3 | 4 | 5 | 6 | 7 | 8 | 9 => rfl
  rw [hread]
  cases readNat (Char.ofNat (48 + k) :: cs) <;> rfl

end Numbers

section Sequences

variable (word : β → List Char) {item : List Char → Option (β × List Char)} {close : Char}

theorem intercalate_cons (b : β) (bs : List β) :
    [','].intercalate ((b :: bs).map word) =
      word b ++ bs.flatMap fun b => ',' :: word b := by
  induction bs generalizing b with
  | nil =>
      simp [List.intercalate]
  | cons b' bs ih =>
      have htail := ih b'
      simp only [List.intercalate, List.map_cons, List.intersperse_cons_cons, List.flatten_cons,
        List.flatMap_cons] at htail ⊢
      rw [htail]
      simp

theorem length_word_le {b : β} {bs : List β} (hb : b ∈ bs) :
    (word b).length ≤ ([','].intercalate (bs.map word)).length := by
  cases bs with
  | nil =>
      cases hb
  | cons b' bs =>
      rw [intercalate_cons, List.length_append]
      cases hb with
      | head =>
          omega
      | tail _ hb =>
          obtain ⟨l, r, rfl⟩ := List.append_of_mem hb
          simp only [List.flatMap_append, List.flatMap_cons, List.length_append,
            List.length_cons]
          omega

theorem length_tail_le (b : β) (bs : List β) :
    bs.length ≤ ([','].intercalate ((b :: bs).map word)).length := by
  have htail : bs.length ≤ (bs.flatMap fun b => ',' :: word b).length := by
    induction bs with
    | nil =>
        exact Nat.zero_le _
    | cons b' bs ih =>
        simp only [List.flatMap_cons, List.length_append, List.length_cons]
        omega
  rw [intercalate_cons, List.length_append]
  omega

theorem stops_tail (hdigit : close.isDigit = false) (bs : List β) (rest : List Char) :
    Stops ((bs.flatMap fun b => ',' :: word b) ++ close :: rest) := by
  cases bs with
  | nil =>
      exact stops_cons hdigit rest
  | cons b bs =>
      exact stops_cons rfl _

theorem readTail_words (hclose : close ≠ ',') (hdigit : close.isDigit = false) {bs : List β}
    (hitem : ∀ b ∈ bs, ∀ rest, Stops rest → item (word b ++ rest) = some (b, rest)) {n : Nat}
    (hn : bs.length < n) (rest : List Char) :
    readTail item close n ((bs.flatMap fun b => ',' :: word b) ++ close :: rest) =
      some (bs, rest) := by
  induction bs generalizing n with
  | nil =>
      cases n with
      | zero =>
          omega
      | succ n =>
          rw [List.flatMap_nil, List.nil_append, readTail, if_pos rfl]
  | cons b bs ih =>
      cases n with
      | zero =>
          omega
      | succ n =>
          have hhead := hitem b List.mem_cons_self _ (stops_tail word hdigit bs rest)
          have htail := ih (fun b hb => hitem b (List.mem_cons_of_mem _ hb))
            (Nat.lt_of_succ_lt_succ hn)
          rw [List.flatMap_cons, List.cons_append, List.cons_append, List.append_assoc, readTail,
            if_neg hclose.symm, if_pos rfl, hhead]
          simp [htail]

theorem readSeq_words (hclose : close ≠ ',') (hdigit : close.isDigit = false) {bs : List β}
    (hitem : ∀ b ∈ bs, ∀ rest, Stops rest → item (word b ++ rest) = some (b, rest))
    (hword : ∀ b ∈ bs, ∃ c cs, word b = c :: cs ∧ c ≠ close) {n : Nat}
    (hn : ([','].intercalate (bs.map word)).length < n) (rest : List Char) :
    readSeq item close n ([','].intercalate (bs.map word) ++ close :: rest) =
      some (bs, rest) := by
  cases bs with
  | nil =>
      rw [List.map_nil, List.intercalate, List.intersperse_nil, List.flatten_nil, List.nil_append,
        readSeq, if_pos rfl]
  | cons b bs =>
      have hlength : bs.length ≤ ([','].intercalate ((b :: bs).map word)).length :=
        length_tail_le word b bs
      have hhead := hitem b List.mem_cons_self _ (stops_tail word hdigit bs rest)
      have htail := readTail_words word hclose hdigit
        (fun b hb => hitem b (List.mem_cons_of_mem _ hb)) (Nat.lt_of_le_of_lt hlength hn) rest
      obtain ⟨c, cs, hcs, hne⟩ := hword b List.mem_cons_self
      rw [intercalate_cons, List.append_assoc]
      rw [hcs] at hhead ⊢
      rw [List.cons_append] at hhead ⊢
      rw [readSeq, if_neg hne, hhead]
      simp [htail]

end Sequences

section RoundTrip

theorem writeField_eq (entry : String × Json) :
    writeField entry = quote entry.1 ++ ':' :: write entry.2 := by
  obtain ⟨name, j⟩ := entry
  rfl

/-- How a value starts: with none of the closing characters. -/
theorem write_cons (j : Json) : ∃ c cs, write j = c :: cs ∧ c ≠ ']' := by
  cases j with
  | null =>
      exact ⟨'n', ['u', 'l', 'l'], rfl, by decide⟩
  | bool b =>
      cases b with
      | true =>
          exact ⟨'t', ['r', 'u', 'e'], rfl, by decide⟩
      | false =>
          exact ⟨'f', ['a', 'l', 's', 'e'], rfl, by decide⟩
  | num n =>
      cases n with
      | ofNat n =>
          obtain ⟨c, cs, hcs, hdigit⟩ := toString_nat_cons n
          refine ⟨c, cs, hcs, ?_⟩
          rintro rfl
          cases hdigit
      | negSucc n =>
          exact ⟨'-', (toString (n + 1)).toList, toString_negSucc n, by decide⟩
  | str s =>
      exact ⟨'"', _, rfl, by decide⟩
  | arr items =>
      exact ⟨'[', _, rfl, by decide⟩
  | obj fields =>
      exact ⟨'\x7b', _, rfl, by decide⟩

theorem readField_write {value : List Char → Option (Json × List Char)} {entry : String × Json}
    {rest : List Char} (h : value (write entry.2 ++ rest) = some (entry.2, rest)) :
    readField value (writeField entry ++ rest) = some (entry, rest) := by
  rw [writeField_eq, quote]
  simp only [List.cons_append, List.append_assoc, List.nil_append]
  rw [readField, readChars_flatMap]
  simp [h]

theorem write_length_pos (j : Json) : 0 < (write j).length := by
  obtain ⟨c, cs, hcs, _⟩ := write_cons j
  rw [hcs]
  exact Nat.succ_pos _

theorem readValue_write (j : Json) : ∀ {n : Nat} {rest : List Char}, (write j).length ≤ n →
    Stops rest → readValue n (write j ++ rest) = some (j, rest) := by
  induction j using induct with
  | null =>
      intro n rest hn _
      cases n with
      | zero =>
          exact absurd hn (Nat.not_le.mpr (write_length_pos _))
      | succ n =>
          exact readValue_null n rest
  | bool b =>
      intro n rest hn _
      cases n with
      | zero =>
          exact absurd hn (Nat.not_le.mpr (write_length_pos _))
      | succ n =>
          cases b with
          | true =>
              exact readValue_true n rest
          | false =>
              exact readValue_false n rest
  | num k =>
      intro n rest hn hrest
      cases n with
      | zero =>
          exact absurd hn (Nat.not_le.mpr (write_length_pos _))
      | succ n =>
          cases k with
          | ofNat k =>
              obtain ⟨c, cs, hcs, hdigit⟩ := toString_nat_cons k
              have hword : write (.num (Int.ofNat k)) = c :: cs := hcs
              have hread := readNat_toString k hrest
              rw [hcs, List.cons_append] at hread
              rw [hword, List.cons_append, readValue_digit hdigit, hread]
              rfl
          | negSucc k =>
              have hword : write (.num (Int.negSucc k)) = '-' :: (toString (k + 1)).toList :=
                toString_negSucc k
              rw [hword, List.cons_append, readValue_neg, readNat_toString (k + 1) hrest]
              rfl
  | str s =>
      intro n rest hn _
      cases n with
      | zero =>
          exact absurd hn (Nat.not_le.mpr (write_length_pos _))
      | succ n =>
          rw [write_str, quote, List.cons_append, List.append_assoc, List.cons_append,
            List.nil_append, readValue_str, readChars_flatMap]
          simp
  | arr items ih =>
      intro n rest hn _
      cases n with
      | zero =>
          exact absurd hn (Nat.not_le.mpr (write_length_pos _))
      | succ n =>
          have hlength : ([','].intercalate (items.map write)).length < n := by
            rw [write_arr, writeItems_eq] at hn
            simp only [List.length_cons, List.length_append, List.length_nil] at hn
            omega
          have hread := readSeq_words write (show ']' ≠ ',' by decide) rfl
            (fun j hj rest hrest => ih j hj
              (Nat.le_of_lt (Nat.lt_of_le_of_lt (length_word_le write hj) hlength)) hrest)
            (fun j _ => write_cons j) hlength rest
          rw [write_arr, writeItems_eq, List.cons_append, List.append_assoc, List.cons_append,
            List.nil_append, readValue_arr, hread]
          rfl
  | obj fields ih =>
      intro n rest hn _
      cases n with
      | zero =>
          exact absurd hn (Nat.not_le.mpr (write_length_pos _))
      | succ n =>
          have hlength : ([','].intercalate (fields.map writeField)).length < n := by
            rw [write_obj, writeFields_eq] at hn
            simp only [List.length_cons, List.length_append, List.length_nil] at hn
            omega
          have hfield : ∀ entry ∈ fields, (write entry.2).length ≤ n := by
            intro entry hentry
            have hle := length_word_le writeField hentry
            rw [writeField_eq, List.length_append, List.length_cons] at hle
            omega
          have hread := readSeq_words writeField (show '\x7d' ≠ ',' by decide) rfl
            (fun entry hentry rest hrest => readField_write (ih entry hentry
              (hfield entry hentry) hrest))
            (fun entry _ => ⟨'"', _, by rw [writeField_eq, quote, List.cons_append], by decide⟩)
            hlength rest
          rw [write_obj, writeFields_eq, List.cons_append, List.append_assoc, List.cons_append,
            List.nil_append, readValue_obj, hread]
          rfl

/-- The parser reads what the writer writes. -/
theorem ofText_text (j : Json) : ofText (text j) = some j := by
  have hread := readValue_write j (Nat.le_refl _) stops_nil
  rw [List.append_nil] at hread
  unfold ofText text
  rw [String.length_ofList, String.toList_ofList, hread]
  rfl

end RoundTrip

end Reader

section Fits

/-- Nested at most so deep, with numbers of at most 64 bits. -/
def Fits : Nat → Json → Prop
  | _, .null => True
  | _, .bool _ => True
  | _, .num n => -9223372036854775808 ≤ n ∧ n < 18446744073709551616
  | _, .str _ => True
  | 0, .arr _ => False
  | 0, .obj _ => False
  | d + 1, .arr items => ∀ j ∈ items, Fits d j
  | d + 1, .obj fields => ∀ entry ∈ fields, Fits d entry.2

theorem fits_str (d : Nat) (s : String) : Fits d (.str s) := by
  cases d <;> trivial

theorem fits_obj (d : Nat) (fields : List (String × Json)) :
    Fits (d + 1) (.obj fields) = ∀ entry ∈ fields, Fits d entry.2 := rfl

theorem Fits.succ {d : Nat} {j : Json} (h : Fits d j) : Fits (d + 1) j := by
  induction d generalizing j with
  | zero =>
      cases j with
      | null => trivial
      | bool b => trivial
      | num n => exact h
      | str s => trivial
      | arr items => cases h
      | obj fields => cases h
  | succ d ih =>
      cases j with
      | null => trivial
      | bool b => trivial
      | num n => exact h
      | str s => trivial
      | arr items => exact fun j hj => ih (h j hj)
      | obj fields => exact fun entry hentry => ih (h entry hentry)

theorem Fits.mono {d e : Nat} {j : Json} (h : Fits d j) (hde : d ≤ e) : Fits e j := by
  induction hde with
  | refl =>
      exact h
  | step _ ih =>
      exact ih.succ

theorem Fits.remove {d : Nat} {j : Json} (h : Fits d j) (name : String) :
    Fits d (remove name j) := by
  cases j with
  | obj fields =>
      cases d with
      | zero =>
          cases h
      | succ d =>
          intro entry hentry
          exact h entry (List.mem_filter.mp hentry).1
  | _ =>
      exact h

theorem Fits.modifyAt {f : Json → Json} (hf : ∀ d j, Fits d j → Fits d (f j))
    (path : List Step) {d : Nat} {j : Json} (h : Fits d j) : Fits d (modifyAt path f j) := by
  induction path generalizing d j with
  | nil =>
      rw [Json.modifyAt]
      exact hf d j h
  | cons step path ih =>
      cases step with
      | field name =>
          cases j with
          | obj fields =>
              cases d with
              | zero =>
                  cases h
              | succ d =>
                  rw [Json.modifyAt]
                  intro entry hentry
                  obtain ⟨before, hbefore, rfl⟩ := List.mem_map.mp hentry
                  split
                  · exact ih (h before hbefore)
                  · exact h before hbefore
          | _ =>
              rw [Json.modifyAt]
              · exact h
              all_goals simp
      | index i =>
          cases j with
          | arr items =>
              cases d with
              | zero =>
                  cases h
              | succ d =>
                  rw [Json.modifyAt]
                  intro j hj
                  obtain ⟨k, hk, rfl⟩ := List.mem_iff_getElem.mp hj
                  rw [List.getElem_modify]
                  split
                  · exact ih (h _ (List.getElem_mem _))
                  · exact h _ (List.getElem_mem _)
          | _ =>
              rw [Json.modifyAt]
              · exact h
              all_goals simp

theorem Fits.removeAll {d : Nat} {j : Json} (h : Fits d j) (removals : List (List Step × String)) :
    Fits d (removeAll removals j) := by
  unfold Json.removeAll
  induction removals generalizing j with
  | nil =>
      exact h
  | cons removal removals ih =>
      exact ih (h.modifyAt (fun _ _ hj => hj.remove removal.2) removal.1)

section Codecs

variable {α : Type} {d : Nat}

theorem fits_ofBool (b : Bool) : Fits d (Codec.ofBool.encode b) := by
  cases d <;> trivial

theorem fits_ofString (s : String) : Fits d (Codec.ofString.encode s) := fits_str d s

theorem fits_ofText (form : TextForm α) (a : α) : Fits d ((Codec.ofText form).encode a) :=
  fits_str d _

theorem fits_ofUInt16 (a : UInt16) : Fits d (Codec.ofUInt16.encode a) := by
  have hlt : a.toNat < 65536 := a.toNat_lt
  have hbounds : -9223372036854775808 ≤ (a.toNat : Int) ∧
      (a.toNat : Int) < 18446744073709551616 := by omega
  cases d <;> exact hbounds

theorem fits_ofUInt64 (a : UInt64) : Fits d (Codec.ofUInt64.encode a) := by
  have hlt : a.toNat < 18446744073709551616 := a.toNat_lt
  have hbounds : -9223372036854775808 ≤ (a.toNat : Int) ∧
      (a.toNat : Int) < 18446744073709551616 := by omega
  cases d <;> exact hbounds

theorem fits_ofInt64 (a : Int64) : Fits d (Codec.ofInt64.encode a) := by
  have hle := a.le_toInt
  have hlt := a.toInt_lt
  have hbounds : -9223372036854775808 ≤ a.toInt ∧ a.toInt < 18446744073709551616 := by omega
  cases d <;> exact hbounds

theorem fits_option {c : Codec α} {hnull : ∀ a, c.encode a ≠ .null}
    (h : ∀ a, Fits d (c.encode a)) (a : Option α) : Fits d ((c.option hnull).encode a) := by
  cases a with
  | none =>
      cases d <;> trivial
  | some a =>
      exact h a

theorem fits_list {c : Codec α} (h : ∀ a, Fits d (c.encode a)) (as : List α) :
    Fits (d + 1) ((Codec.list c).encode as) := by
  intro j hj
  obtain ⟨a, _, rfl⟩ := List.mem_map.mp hj
  exact h a

end Codecs

/-- A JSON parser. -/
structure Reader where
  read : String → Option Json
  read_text : ∀ j, Fits 127 j → read (text j) = some j

/-- The parser of this module. -/
def reader : Reader where
  read := ofText
  read_text j _ := ofText_text j

end Fits

end Json
end Library
end ZeroVpn
