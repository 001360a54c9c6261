import Mathlib.Data.List.TakeWhile
import Mathlib.Data.String.Basic

/-!
# Lines and words

The text functions of Rust's standard library that parsers of command output are
written with: lines, words between white space, the fields between separators, and
windows over a list of words.  A text is the list of its characters.
-/

namespace ZeroVpn
namespace Library
namespace Text

/-- `char::is_whitespace`. -/
def isWhitespace (c : Char) : Bool :=
  let n := c.toNat
  decide (0x09 ≤ n ∧ n ≤ 0x0D) || n == 0x20 || n == 0x85 || n == 0xA0 || n == 0x1680 ||
    decide (0x2000 ≤ n ∧ n ≤ 0x200A) || n == 0x2028 || n == 0x2029 || n == 0x202F ||
    n == 0x205F || n == 0x3000

/-- The characters of a literal, without decoding it. -/
theorem toList_of_eq {s : String} {cs : List Char} (h : s = String.ofList cs) : s.toList = cs := by
  rw [h, String.toList_ofList]

/-- `str::trim`. -/
def trim (s : List Char) : List Char :=
  ((s.dropWhile isWhitespace).reverse.dropWhile isWhitespace).reverse

/-- `str::split_whitespace`. -/
def words (s : List Char) : List (List Char) :=
  (s.splitOnP isWhitespace).filter fun w => w != []

/-- The end of a line that ends with a carriage return and a line feed. -/
def stripReturn (cs : List Char) : List Char :=
  if cs.getLast? = some '\r' then cs.dropLast else cs

/-- `str::lines`: what follows the last line feed is a line only if it is not empty. -/
def lines (s : List Char) : List (List Char) :=
  let pieces := s.splitOn '\n'
  pieces.dropLast.map stripReturn ++ pieces.getLast?.toList.filter fun w => w != []

/-- `str::starts_with`. -/
def startsWith (head : String) (s : List Char) : Bool := head.toList.isPrefixOf s

/-- `str::rsplit_once`: the texts before and after the last occurrence. -/
def rsplitOnce (c : Char) (s : List Char) : Option (List Char × List Char) :=
  if c ∈ s.reverse then
    some ((s.reverse.dropWhile fun d => d != c).tail.reverse,
      (s.reverse.takeWhile fun d => d != c).reverse)
  else none

theorem eq_of_rsplitOnce {c : Char} {s a b : List Char} (h : rsplitOnce c s = some (a, b)) :
    s = a ++ c :: b := by
  unfold rsplitOnce at h
  split at h
  · rename_i hmem
    simp only [Option.some.injEq, Prod.mk.injEq] at h
    obtain ⟨rfl, rfl⟩ := h
    have hsplit : s.reverse.takeWhile (fun d => d != c) ++
        s.reverse.dropWhile (fun d => d != c) = s.reverse :=
      List.takeWhile_append_dropWhile
    cases hdrop : s.reverse.dropWhile fun d => d != c with
    | nil =>
        -- the character occurs, so that something is left
        rw [List.dropWhile_eq_nil_iff] at hdrop
        exact absurd (hdrop c hmem) (by simp)
    | cons d rest =>
        have hd : d = c := by
          have hhead := List.head?_dropWhile_not (fun d => d != c) s.reverse
          rw [hdrop] at hhead
          simpa using hhead
        rw [hdrop, hd] at hsplit
        have hs := congrArg List.reverse hsplit
        simp only [List.reverse_append, List.reverse_cons, List.reverse_reverse,
          List.append_assoc] at hs
        exact hs.symm
  · cases h

variable {α : Type}

/-- `windows(2)`. -/
def pairs (xs : List α) : List (α × α) := xs.zip xs.tail

/-- `windows(3)`. -/
def triples (xs : List α) : List (α × α × α) := xs.zip (xs.tail.zip xs.tail.tail)

section Lines

/-- Lines, each with its line feed. -/
def unlines (ls : List (List Char)) : List Char := ls.flatMap fun l => l ++ ['\n']

theorem stripReturn_eq {cs : List Char} (h : '\r' ∉ cs) : stripReturn cs = cs := by
  unfold stripReturn
  rw [if_neg]
  intro hlast
  exact h (List.mem_of_getLast? hlast)

theorem splitOn_unlines {ls : List (List Char)} (h : ∀ l ∈ ls, '\n' ∉ l) :
    (unlines ls).splitOn '\n' = ls ++ [[]] := by
  induction ls with
  | nil =>
      rfl
  | cons l ls ih =>
      have htail := ih fun l' hl' => h l' (List.mem_cons_of_mem _ hl')
      have hl : '\n' ∉ l := h l List.mem_cons_self
      have hcons : unlines (l :: ls) = l ++ '\n' :: unlines ls := by
        simp [unlines]
      rw [hcons, List.splitOn_append_cons_self_of_not_mem hl, htail]
      rfl

/-- The lines of a text that was made of lines. -/
theorem lines_unlines {ls : List (List Char)} (h : ∀ l ∈ ls, '\n' ∉ l ∧ '\r' ∉ l) :
    lines (unlines ls) = ls := by
  have hmap : ls.map stripReturn = ls := by
    rw [List.map_congr_left fun l hl => stripReturn_eq (h l hl).2, List.map_id']
  unfold lines
  simp only [splitOn_unlines fun l hl => (h l hl).1, List.dropLast_concat, List.getLast?_append,
    List.getLast?_singleton, hmap]
  simp

end Lines

section Trim

theorem dropWhile_of_head {s : List Char} {p : Char → Bool} (h : ∀ c ∈ s.head?, p c = false) :
    s.dropWhile p = s := by
  cases s with
  | nil =>
      rfl
  | cons c s =>
      rw [List.dropWhile_cons, h c rfl]
      rfl

/-- White space around a text is dropped. -/
theorem trim_padded {l s r : List Char} (hl : ∀ c ∈ l, isWhitespace c = true)
    (hr : ∀ c ∈ r, isWhitespace c = true) (hhead : ∀ c ∈ s.head?, isWhitespace c = false)
    (hlast : ∀ c ∈ s.getLast?, isWhitespace c = false) : trim (l ++ s ++ r) = s := by
  unfold trim
  rw [List.append_assoc, List.dropWhile_append_of_pos hl]
  cases s with
  | nil =>
      have hnil : r.dropWhile isWhitespace = [] := by
        rw [List.dropWhile_eq_nil_iff]
        exact hr
      rw [List.nil_append, hnil]
      rfl
  | cons c s =>
      have hfront : (c :: s ++ r).dropWhile isWhitespace = c :: s ++ r :=
        dropWhile_of_head fun d hd => hhead d hd
      have hback : ∀ d ∈ r.reverse, isWhitespace d = true := fun d hd =>
        hr d (List.mem_reverse.mp hd)
      rw [hfront, List.reverse_append, List.dropWhile_append_of_pos hback,
        dropWhile_of_head (by rw [List.head?_reverse]; exact hlast), List.reverse_reverse]

/-- A text without white space at its ends. -/
theorem trim_eq_self {s : List Char} (hhead : ∀ c ∈ s.head?, isWhitespace c = false)
    (hlast : ∀ c ∈ s.getLast?, isWhitespace c = false) : trim s = s := by
  have h := trim_padded (l := []) (r := []) (fun c hc => by cases hc) (fun c hc => by cases hc)
    hhead hlast
  rwa [List.nil_append, List.append_nil] at h

end Trim

section Words

/-- A word: something without white space. -/
def Word (w : List Char) : Prop := w ≠ [] ∧ ∀ c ∈ w, isWhitespace c = false

theorem word_of_all {w : List Char} (h : (!w.isEmpty && w.all fun c => !isWhitespace c) = true) :
    Word w := by
  simpa [Word] using h

@[simp] theorem words_nil : words [] = [] := rfl

/-- White space in front is skipped. -/
theorem words_space {c : Char} (h : isWhitespace c = true) (s : List Char) :
    words (c :: s) = words s := by
  have hsplit : (c :: s).splitOnP isWhitespace = [[]] ++ s.splitOnP isWhitespace :=
    List.splitOnP_append_cons [] s h
  unfold words
  rw [hsplit]
  rfl

/-- A word ends at white space. -/
theorem words_cons {w : List Char} (hw : Word w) {c : Char} (h : isWhitespace c = true)
    (s : List Char) : words (w ++ c :: s) = w :: words s := by
  unfold words
  rw [List.splitOnP_append_cons_of_forall_mem hw.2 c h s]
  simp [hw.1]

/-- A word ends at the end of the text. -/
theorem words_word {w : List Char} (hw : Word w) : words w = [w] := by
  unfold words
  rw [List.splitOnP_eq_singleton hw.2]
  simp [hw.1]

/-- Words with a blank between them. -/
def unwords (ws : List (List Char)) : List Char := [' '].intercalate ws

theorem words_unwords {ws : List (List Char)} (h : ∀ w ∈ ws, Word w) : words (unwords ws) = ws := by
  induction ws with
  | nil =>
      rfl
  | cons w ws ih =>
      have hw := h w List.mem_cons_self
      have hws := ih fun w' hw' => h w' (List.mem_cons_of_mem _ hw')
      cases ws with
      | nil =>
          simpa [unwords, List.intercalate] using words_word hw
      | cons w' ws =>
          have hcons : unwords (w :: w' :: ws) = w ++ ' ' :: unwords (w' :: ws) := by
            simp [unwords, List.intercalate]
          rw [hcons, words_cons hw (by decide), hws]

theorem mem_intercalate {sep c : Char} {ws : List (List Char)} (h : c ∈ [sep].intercalate ws) :
    c = sep ∨ ∃ w ∈ ws, c ∈ w := by
  obtain ⟨w, hw, hc⟩ := List.mem_flatten.mp h
  induction ws with
  | nil =>
      cases hw
  | cons w' ws ih =>
      cases ws with
      | nil =>
          rw [List.intersperse_singleton, List.mem_singleton] at hw
          exact .inr ⟨w', by simp, hw ▸ hc⟩
      | cons w'' ws =>
          rw [List.intersperse_cons_cons, List.mem_cons, List.mem_cons] at hw
          rcases hw with rfl | rfl | hw
          · exact .inr ⟨w, by simp, hc⟩
          · exact .inl (by simpa using hc)
          · rcases ih (List.mem_flatten.mpr ⟨w, hw, hc⟩) hw with hblank | ⟨v, hv, hcv⟩
            · exact .inl hblank
            · exact .inr ⟨v, List.mem_cons_of_mem _ hv, hcv⟩

theorem mem_unwords {ws : List (List Char)} {c : Char} (h : c ∈ unwords ws) :
    c = ' ' ∨ ∃ w ∈ ws, c ∈ w :=
  mem_intercalate h

/-- Words have no line break. -/
theorem Word.no_break {w : List Char} (h : Word w) : '\n' ∉ w ∧ '\r' ∉ w :=
  ⟨fun hmem => absurd (h.2 _ hmem) (by decide), fun hmem => absurd (h.2 _ hmem) (by decide)⟩

theorem unwords_no_break {ws : List (List Char)} (h : ∀ w ∈ ws, Word w) :
    '\n' ∉ unwords ws ∧ '\r' ∉ unwords ws := by
  constructor
  · intro hmem
    rcases mem_unwords hmem with hblank | ⟨w, hw, hc⟩
    · cases hblank
    · exact (h w hw).no_break.1 hc
  · intro hmem
    rcases mem_unwords hmem with hblank | ⟨w, hw, hc⟩
    · cases hblank
    · exact (h w hw).no_break.2 hc

/-- The words of the lines are the words of the text. -/
theorem words_append_newline (s t : List Char) : words (s ++ '\n' :: t) = words s ++ words t := by
  unfold words
  rw [List.splitOnP_append_cons s t (by decide), List.filter_append]

/-- Blanks after the end of a word. -/
theorem words_padded {w : List Char} (hw : Word w) (n : Nat) (s : List Char) :
    words (w ++ List.replicate n ' ' ++ ' ' :: s) = w :: words s := by
  cases n with
  | zero =>
      rw [List.replicate_zero, List.append_nil, words_cons hw (by decide)]
  | succ n =>
      have hblanks : words (List.replicate n ' ' ++ ' ' :: s) = words s := by
        induction n with
        | zero =>
            exact words_space (by decide) s
        | succ n ih =>
            rw [List.replicate_succ, List.cons_append, words_space (by decide), ih]
      rw [List.replicate_succ, List.append_assoc, List.cons_append,
        words_cons hw (by decide), hblanks]

end Words

section Search

variable {p a b : List α} {c : α}

theorem prefix_append_cons (h : c ∉ p) (hp : p <+: a ++ c :: b) : p <+: a := by
  rcases List.prefix_or_prefix_of_prefix hp (List.prefix_append a (c :: b)) with hpa | ⟨q, rfl⟩
  · exact hpa
  · cases q with
    | nil =>
        simp
    | cons d q =>
        have hq : d :: q <+: c :: b := (List.prefix_append_right_inj a).mp hp
        obtain ⟨rfl, _⟩ := List.cons_prefix_cons.mp hq
        exact absurd (by simp) h

/-- What is found in a text does not go across a separator. -/
theorem infix_append_cons (h : c ∉ p) : p <:+: a ++ c :: b ↔ p <:+: a ∨ p <:+: b := by
  induction a with
  | nil =>
      rw [List.nil_append, List.infix_cons_iff]
      constructor
      · rintro (hp | hp)
        · exact Or.inl (List.IsPrefix.isInfix (@prefix_append_cons α p [] b c h hp))
        · exact Or.inr hp
      · rintro (hp | hp)
        · rw [List.infix_nil.mp hp]
          exact Or.inl List.nil_prefix
        · exact Or.inr hp
  | cons x a ih =>
      rw [List.cons_append, List.infix_cons_iff, ih, List.infix_cons_iff, or_assoc]
      refine or_congr ⟨fun hp => ?_, fun hp => ?_⟩ Iff.rfl
      · exact @prefix_append_cons α p (x :: a) b c h hp
      · exact hp.trans (List.prefix_append (x :: a) (c :: b))

/-- A text without white space is found in a line when it is found in a word of it. -/
theorem infix_iff_words {p s : List Char} (hp : Word p) :
    p <:+: s ↔ ∃ w ∈ words s, p <:+: w := by
  induction hn : s.length using Nat.strong_induction_on generalizing s with
  | _ n ih =>
    subst hn
    have hsplit := @List.takeWhile_append_dropWhile Char (fun c => !isWhitespace c) s
    have hword : ∀ c ∈ s.takeWhile fun c => !isWhitespace c, isWhitespace c = false := by
      intro c hc
      simpa using List.mem_takeWhile_imp hc
    cases hdrop : s.dropWhile fun c => !isWhitespace c with
    | nil =>
        rw [hdrop, List.append_nil] at hsplit
        rw [hsplit] at hword
        by_cases hs : s = []
        · rw [hs]
          simp [hp.1]
        · rw [words_word ⟨hs, hword⟩]
          simp
    | cons c t =>
        have hspace : isWhitespace c = true := by
          have hhead := List.head?_dropWhile_not (fun c => !isWhitespace c) s
          rw [hdrop] at hhead
          simpa using hhead
        rw [hdrop] at hsplit
        have hlen : t.length < s.length := by
          rw [← hsplit]
          simp only [List.length_append, List.length_cons]
          omega
        have hc : c ∉ p := fun hmem => by
          rw [hp.2 c hmem] at hspace
          cases hspace
        have htail := ih t.length hlen rfl
        rw [← hsplit, infix_append_cons hc, htail]
        generalize s.takeWhile (fun c => !isWhitespace c) = w at hword
        by_cases hw : w = []
        · subst hw
          rw [List.nil_append, words_space hspace, List.infix_nil]
          simp [hp.1]
        · rw [words_cons ⟨hw, hword⟩ hspace]
          simp

end Search

end Text
end Library
end ZeroVpn
