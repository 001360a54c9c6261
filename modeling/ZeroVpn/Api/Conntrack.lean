import ZeroVpn.Api.Connections

/-!
# The text of the connection table

An entry of the kernel's connection table is printed on one line, by
`conntrack -L` and, with the family of the addresses in front, in
`/proc/net/nf_conntrack`.  `parse_conntrack_exact` says that the parser gets back
the flows of the original direction from either text.

The parser only looks at the words of a line.  The words of an entry are the
columns in front, the original tuple, the reply tuple if there is one, and notes
such as `[ASSURED]` or `mark=0` after each of them.
-/

namespace ZeroVpn

open Library Library.Text

namespace Api
namespace Connections

open HostAgent (readNumber readNumber_toString head_toString)

section Entries

def isAddressChar (c : Char) : Bool :=
  c.isDigit || (decide ('a' ≤ c) && decide (c ≤ 'f')) ||
    (decide ('A' ≤ c) && decide (c ≤ 'F')) || c == ':' || c == '.'

/-- The text of an IPv4 or an IPv6 address. -/
structure Address where
  text : List Char
  nonempty : text ≠ []
  chars : ∀ c ∈ text, isAddressChar c = true

/-- One direction of a connection. -/
structure Tuple where
  src : Address
  dst : Address
  ports : Option (UInt16 × UInt16)

inductive L4 where
  | tcp
  | udp
  | icmp
  | icmpv6
  | sctp
  | dccp
  deriving DecidableEq, Repr

def L4.text : L4 → List Char
  | tcp => "tcp".toList
  | udp => "udp".toList
  | icmp => "icmp".toList
  | icmpv6 => "icmpv6".toList
  | sctp => "sctp".toList
  | dccp => "dccp".toList

inductive Family where
  | ipv4
  | ipv6
  deriving DecidableEq, Repr

def Family.text : Family → List Char
  | ipv4 => "ipv4".toList
  | ipv6 => "ipv6".toList

/-- `AF_INET` or `AF_INET6`. -/
def Family.number : Family → Nat
  | ipv4 => 2
  | ipv6 => 10

def established : List Char := "ESTABLISHED".toList

/-- The names of the four fields of a tuple. -/
def fieldNames : List (List Char) :=
  ["src=".toList, "dst=".toList, "sport=".toList, "dport=".toList]

/-- The state of a connection: a word of capital letters, digits and underscores
that is not another word around the one for an established connection. -/
structure State where
  text : List Char
  nonempty : text ≠ []
  chars : ∀ c ∈ text, c.isUpper = true ∨ c.isDigit = true ∨ c = '_'
  whole : established <:+: text → text = established

/-- A further word of a line. -/
structure Note where
  text : List Char
  word : Word text
  notState : ¬established <:+: text
  notField : ∀ name ∈ fieldNames, ¬name <+: text
  notProtocol : text ∉ protocols

structure Entry where
  family : Family
  proto : L4
  protoNumber : Nat
  timeout : Nat
  state : Option State
  original : Tuple
  notes : List Note
  reply : Option Tuple
  closing : List Note
  /-- Both directions have ports, or none has. -/
  ports_agree : ∀ t ∈ reply, t.ports.isSome = original.ports.isSome

def number (n : Nat) : List Char := (toString n).toList

/-- The words of a tuple. -/
def Tuple.words (t : Tuple) : List (List Char) :=
  ["src=".toList ++ t.src.text, "dst=".toList ++ t.dst.text] ++
    match t.ports with
    | some (sport, dport) =>
        ["sport=".toList ++ number sport.toNat, "dport=".toList ++ number dport.toNat]
    | none => []

/-- The words after the protocol. -/
def Entry.rest (e : Entry) : List (List Char) :=
  [number e.protoNumber, number e.timeout] ++ e.state.toList.map State.text ++
    e.original.words ++ e.notes.map Note.text ++
    (e.reply.map Tuple.words).getD [] ++ e.closing.map Note.text

/-- A left-aligned column of eight characters. -/
def column (w : List Char) : List Char := w ++ List.replicate (8 - w.length) ' '

/-- The line of `conntrack -L`. -/
def Entry.binaryLine (e : Entry) : List Char :=
  column e.proto.text ++ ' ' :: unwords e.rest

/-- The line of `/proc/net/nf_conntrack`. -/
def Entry.procfsLine (e : Entry) : List Char :=
  column e.family.text ++ ' ' :: (number e.family.number ++ ' ' :: e.binaryLine)

/-- The row of the original direction. -/
def Entry.row (e : Entry) : FlowRow where
  src := e.original.src.text
  sport := e.original.ports.map fun p => p.1.toNat
  dst := e.original.dst.text
  dport := e.original.ports.map fun p => p.2.toNat
  proto := e.proto.text

def Entry.isEstablished (e : Entry) : Bool := e.state.any fun s => s.text == established

/-- The entry is a flow of the result. -/
def Entry.shown (e : Entry) : Bool :=
  e.isEstablished && e.original.src.text != e.original.dst.text

/-- The flows of a table: the first of equal ones. -/
def flowsOf (es : List Entry) : List FlowRow :=
  ((es.filter Entry.shown).map Entry.row).eraseDups

end Entries

section Words

variable {c : Char} {w v : List Char}

theorem src_chars : "src=".toList = ['s', 'r', 'c', '='] := toList_of_eq rfl

theorem dst_chars : "dst=".toList = ['d', 's', 't', '='] := toList_of_eq rfl

theorem sport_chars : "sport=".toList = ['s', 'p', 'o', 'r', 't', '='] := toList_of_eq rfl

theorem dport_chars : "dport=".toList = ['d', 'p', 'o', 'r', 't', '='] := toList_of_eq rfl

theorem established_chars :
    established = ['E', 'S', 'T', 'A', 'B', 'L', 'I', 'S', 'H', 'E', 'D'] := toList_of_eq rfl

theorem isAddressChar_of_isDigit (h : c.isDigit = true) : isAddressChar c = true := by
  simp [isAddressChar, h]

/-- The range of the characters of an address. -/
theorem toNat_of_isAddressChar (h : isAddressChar c = true) :
    46 ≤ c.toNat ∧ c.toNat ≤ 102 ∧ c.toNat ≠ 83 := by
  simp only [isAddressChar, Char.isDigit, Bool.or_eq_true, Bool.and_eq_true, decide_eq_true_eq,
    beq_iff_eq, Char.le_def, UInt32.le_iff_toNat_le, ge_iff_le] at h
  change 46 ≤ c.val.toNat ∧ c.val.toNat ≤ 102 ∧ c.val.toNat ≠ 83
  rcases h with (((h | h) | h) | rfl) | rfl
  · have hlow : 48 ≤ c.val.toNat := h.1
    have hhigh : c.val.toNat ≤ 57 := h.2
    omega
  · have hlow : 97 ≤ c.val.toNat := h.1
    have hhigh : c.val.toNat ≤ 102 := h.2
    omega
  · have hlow : 65 ≤ c.val.toNat := h.1
    have hhigh : c.val.toNat ≤ 70 := h.2
    omega
  · decide
  · decide

/-- A word that is not about the state of a connection. -/
structure Plain (w : List Char) : Prop where
  word : Word w
  notState : ¬established <:+: w

theorem not_established (h : 'S' ∉ w) : ¬established <:+: w := by
  intro hinside
  refine h (hinside.subset ?_)
  rw [established_chars]
  decide

theorem isWhitespace_of_toNat (hlow : 33 ≤ c.toNat) (hhigh : c.toNat ≤ 122) :
    isWhitespace c = false := by
  simp only [isWhitespace, Bool.or_eq_false_iff, decide_eq_false_iff_not, beq_eq_false_iff_ne,
    ne_eq]
  omega

theorem plain_of_address (hne : w ≠ []) (h : ∀ c ∈ w, isAddressChar c = true) : Plain w := by
  refine ⟨⟨hne, ?_⟩, not_established ?_⟩
  · intro c hc
    have hrange := toNat_of_isAddressChar (h c hc)
    exact isWhitespace_of_toNat (by omega) (by omega)
  · intro hmem
    exact (toNat_of_isAddressChar (h _ hmem)).2.2 rfl

theorem number_chars (n : Nat) : ∀ c ∈ number n, isAddressChar c = true := fun c hc =>
  isAddressChar_of_isDigit (Json.all_isDigit_toString n c hc)

theorem number_plain (n : Nat) : Plain (number n) :=
  plain_of_address (HostAgent.toString_ne_nil n) (number_chars n)

/-- A field of a tuple is a plain word. -/
theorem field_plain {name : List Char} (hname : name ∈ fieldNames)
    (h : ∀ c ∈ v, isAddressChar c = true) : Plain (name ++ v) := by
  have hfields : (fieldNames.all fun name => !name.isEmpty &&
      (name.all fun c => !isWhitespace c) && !name.contains 'S') = true := by
    simp only [fieldNames, src_chars, dst_chars, sport_chars, dport_chars]
    decide
  have hfield := List.all_eq_true.mp hfields name hname
  simp only [Bool.and_eq_true, Bool.not_eq_true', List.isEmpty_eq_false_iff, List.all_eq_true,
    List.contains_eq_mem, decide_eq_false_iff_not] at hfield
  obtain ⟨⟨hne, hspace⟩, hS⟩ := hfield
  refine ⟨⟨by simp [hne], ?_⟩, not_established ?_⟩
  · intro c hc
    rcases List.mem_append.mp hc with hn | hv
    · exact hspace c hn
    · have hrange := toNat_of_isAddressChar (h c hv)
      exact isWhitespace_of_toNat (by omega) (by omega)
  · intro hmem
    rcases List.mem_append.mp hmem with hn | hv
    · exact hS hn
    · exact (toNat_of_isAddressChar (h _ hv)).2.2 rfl

theorem Tuple.words_plain (t : Tuple) : ∀ w ∈ t.words, Plain w := by
  intro w hw
  rcases List.mem_append.mp hw with haddress | hport
  · simp only [List.mem_cons, List.not_mem_nil, or_false] at haddress
    rcases haddress with rfl | rfl
    · exact field_plain (by simp [fieldNames]) t.src.chars
    · exact field_plain (by simp [fieldNames]) t.dst.chars
  · split at hport
    · simp only [List.mem_cons, List.not_mem_nil, or_false] at hport
      rcases hport with rfl | rfl
      · exact field_plain (by simp [fieldNames]) (number_chars _)
      · exact field_plain (by simp [fieldNames]) (number_chars _)
    · cases hport

theorem State.word (s : State) : Word s.text := by
  refine ⟨s.nonempty, ?_⟩
  intro c hc
  rcases s.chars c hc with hupper | hdigit | rfl
  · obtain ⟨hlow, hhigh⟩ : 65 ≤ c.toNat ∧ c.toNat ≤ 90 := of_decide_eq_true hupper
    exact isWhitespace_of_toNat (by omega) (by omega)
  · have hrange := toNat_of_isAddressChar (isAddressChar_of_isDigit hdigit)
    exact isWhitespace_of_toNat (by omega) (by omega)
  · decide

theorem L4.plain (p : L4) : Plain p.text := by
  have hchars : ∀ p : L4, p.text ≠ [] ∧ p.text.all (fun c => !isWhitespace c) = true ∧
      'S' ∉ p.text := by
    intro p
    cases p <;> decide
  obtain ⟨hne, hword, hS⟩ := hchars p
  exact ⟨⟨hne, by simpa using hword⟩, not_established hS⟩

theorem Family.plain (f : Family) : Plain f.text := by
  have hchars : ∀ f : Family, f.text ≠ [] ∧ f.text.all (fun c => !isWhitespace c) = true ∧
      'S' ∉ f.text := by
    intro f
    cases f <;> decide
  obtain ⟨hne, hword, hS⟩ := hchars f
  exact ⟨⟨hne, by simpa using hword⟩, not_established hS⟩

/-- The words after the protocol: the state, and plain words. -/
theorem Entry.rest_cases (e : Entry) {w : List Char} (hw : w ∈ e.rest) :
    Plain w ∨ ∃ s ∈ e.state, s.text = w := by
  simp only [Entry.rest, List.mem_append, List.mem_cons, List.not_mem_nil, or_false,
    List.mem_map, Option.mem_toList] at hw
  rcases hw with ((((hcolumn | ⟨s, hs, rfl⟩) | horiginal) | ⟨n, _, rfl⟩) | hreply) | ⟨n, _, rfl⟩
  · rcases hcolumn with rfl | rfl
    · exact Or.inl (number_plain _)
    · exact Or.inl (number_plain _)
  · exact Or.inr ⟨s, hs, rfl⟩
  · exact Or.inl (e.original.words_plain w horiginal)
  · exact Or.inl ⟨n.word, n.notState⟩
  · cases hr : e.reply with
    | none =>
        rw [hr] at hreply
        cases hreply
    | some t =>
        rw [hr] at hreply
        exact Or.inl (t.words_plain w hreply)
  · exact Or.inl ⟨n.word, n.notState⟩

theorem Entry.rest_words (e : Entry) : ∀ w ∈ e.rest, Word w := by
  intro w hw
  rcases e.rest_cases hw with hplain | ⟨s, _, rfl⟩
  · exact hplain.word
  · exact s.word

/-- The state is found in the words of the entry only if it is the state. -/
theorem Entry.established_iff (e : Entry) :
    (∃ w ∈ e.rest, established <:+: w) ↔ e.isEstablished = true := by
  unfold Entry.isEstablished
  constructor
  · rintro ⟨w, hw, hinside⟩
    rcases e.rest_cases hw with hplain | ⟨s, hs, rfl⟩
    · exact absurd hinside hplain.notState
    · rw [hs]
      simpa using s.whole hinside
  · intro h
    cases hs : e.state with
    | none =>
        rw [hs] at h
        cases h
    | some s =>
        rw [hs] at h
        have htext : s.text = established := by simpa using h
        refine ⟨s.text, ?_, ?_⟩
        · simp [Entry.rest, hs]
        · rw [htext]

theorem Entry.words_binaryLine (e : Entry) : words e.binaryLine = e.proto.text :: e.rest := by
  unfold Entry.binaryLine column
  rw [words_padded e.proto.plain.word, words_unwords e.rest_words]

theorem Entry.words_procfsLine (e : Entry) :
    words e.procfsLine = e.family.text :: number e.family.number :: e.proto.text :: e.rest := by
  unfold Entry.procfsLine column
  rw [words_padded e.family.plain.word, words_cons (number_plain _).word (by decide),
    e.words_binaryLine]

theorem column_no_break (h : Word w) : '\n' ∉ column w ∧ '\r' ∉ column w := by
  unfold column
  constructor
  · intro hmem
    rcases List.mem_append.mp hmem with hw | hblank
    · exact h.no_break.1 hw
    · cases List.eq_of_mem_replicate hblank
  · intro hmem
    rcases List.mem_append.mp hmem with hw | hblank
    · exact h.no_break.2 hw
    · cases List.eq_of_mem_replicate hblank

theorem Entry.binaryLine_no_break (e : Entry) :
    '\n' ∉ e.binaryLine ∧ '\r' ∉ e.binaryLine := by
  have hcolumn := column_no_break e.proto.plain.word
  have hrest := unwords_no_break e.rest_words
  unfold Entry.binaryLine
  simp [hcolumn.1, hcolumn.2, hrest.1, hrest.2]

theorem Entry.procfsLine_no_break (e : Entry) :
    '\n' ∉ e.procfsLine ∧ '\r' ∉ e.procfsLine := by
  have hcolumn := column_no_break e.family.plain.word
  have hnumber := (number_plain e.family.number).word.no_break
  have hline := e.binaryLine_no_break
  unfold Entry.procfsLine
  simp [hcolumn.1, hcolumn.2, hnumber.1, hnumber.2, hline.1, hline.2]

end Words

section Scan

variable {f : Fields} {w v : List Char}

theorem dropPrefix?_self (name v : List Char) : (name ++ v).dropPrefix? name = some v :=
  List.dropPrefix?_append_of_beq v (beq_self_eq_true name)

theorem dropPrefix?_of_not {name : List Char} (h : ¬name <+: w) : w.dropPrefix? name = none := by
  cases hdrop : w.dropPrefix? name with
  | none =>
      rfl
  | some rest =>
      obtain ⟨head, rfl, hbeq⟩ := List.dropPrefix?_eq_some_iff.mp hdrop
      rw [beq_iff_eq.mp hbeq] at h
      exact absurd (List.prefix_append name rest) h

/-- A word that is no field is passed over. -/
theorem scan_other (h : ∀ name ∈ fieldNames, ¬name <+: w) : f.scan w = f := by
  simp only [fieldNames, List.forall_mem_cons, List.not_mem_nil, false_imp_iff, implies_true,
    and_true] at h
  obtain ⟨hsrc, hdst, hsport, hdport⟩ := h
  simp only [Fields.scan, dropPrefix?_of_not hsrc, dropPrefix?_of_not hdst,
    dropPrefix?_of_not hsport, dropPrefix?_of_not hdport]

theorem scan_src : f.scan ("src=".toList ++ v) =
    if f.src.isNone then { f with src := some v } else f := by
  simp only [Fields.scan, dropPrefix?_self]

theorem scan_dst : f.scan ("dst=".toList ++ v) =
    if f.dst.isNone then { f with dst := some v } else f := by
  have hsrc : ¬"src=".toList <+: "dst=".toList ++ v := by
    rw [src_chars, dst_chars]
    simp [List.cons_prefix_cons]
  simp only [Fields.scan, dropPrefix?_of_not hsrc, dropPrefix?_self]

theorem scan_sport : f.scan ("sport=".toList ++ v) =
    if f.sport.isNone then { f with sport := parseI32 v } else f := by
  have hsrc : ¬"src=".toList <+: "sport=".toList ++ v := by
    rw [src_chars, sport_chars]
    simp [List.cons_prefix_cons]
  have hdst : ¬"dst=".toList <+: "sport=".toList ++ v := by
    rw [dst_chars, sport_chars]
    simp [List.cons_prefix_cons]
  simp only [Fields.scan, dropPrefix?_of_not hsrc, dropPrefix?_of_not hdst, dropPrefix?_self]

theorem scan_dport : f.scan ("dport=".toList ++ v) =
    if f.dport.isNone then { f with dport := parseI32 v } else f := by
  have hsrc : ¬"src=".toList <+: "dport=".toList ++ v := by
    rw [src_chars, dport_chars]
    simp [List.cons_prefix_cons]
  have hdst : ¬"dst=".toList <+: "dport=".toList ++ v := by
    rw [dst_chars, dport_chars]
    simp [List.cons_prefix_cons]
  have hsport : ¬"sport=".toList <+: "dport=".toList ++ v := by
    rw [sport_chars, dport_chars]
    simp [List.cons_prefix_cons]
  simp only [Fields.scan, dropPrefix?_of_not hsrc, dropPrefix?_of_not hdst,
    dropPrefix?_of_not hsport, dropPrefix?_self]

/-- A port is read back. -/
theorem parseI32_number (p : UInt16) : parseI32 (number p.toNat) = some (p.toNat : Int) := by
  have hlt := p.toNat_lt
  unfold parseI32 number
  rw [if_neg (head_toString _ (by decide))]
  simp only
  rw [if_neg (head_toString _ (by decide)), readNumber_toString, Option.bind_some,
    if_pos (by omega)]

theorem foldl_scan_other {ws : List (List Char)}
    (h : ∀ w ∈ ws, ∀ name ∈ fieldNames, ¬name <+: w) : ws.foldl Fields.scan f = f := by
  induction ws with
  | nil =>
      rfl
  | cons w ws ih =>
      rw [List.foldl_cons, scan_other (h w List.mem_cons_self)]
      exact ih fun w' hw' => h w' (List.mem_cons_of_mem _ hw')

/-- The fields of a tuple. -/
def Tuple.fields (t : Tuple) : Fields where
  src := some t.src.text
  dst := some t.dst.text
  sport := t.ports.map fun p => p.1.toNat
  dport := t.ports.map fun p => p.2.toNat

theorem scan_first_tuple (t : Tuple) :
    t.words.foldl Fields.scan ⟨none, none, none, none⟩ = t.fields := by
  unfold Tuple.words Tuple.fields
  rw [List.foldl_append]
  simp only [List.foldl_cons, List.foldl_nil, scan_src, scan_dst, Option.isNone_none, if_true]
  cases t.ports with
  | none =>
      rfl
  | some p =>
      simp only [List.foldl_cons, List.foldl_nil, scan_sport, scan_dport, parseI32_number,
        Option.isNone_none, if_true, Option.map_some]

/-- The fields of the first tuple are not replaced by those of another one with the
same fields. -/
theorem scan_later_tuple {t r : Tuple} (h : r.ports.isSome = t.ports.isSome) :
    r.words.foldl Fields.scan t.fields = t.fields := by
  unfold Tuple.words
  rw [List.foldl_append]
  have haddresses : ["src=".toList ++ r.src.text, "dst=".toList ++ r.dst.text].foldl Fields.scan
      t.fields = t.fields := by
    simp only [List.foldl_cons, List.foldl_nil, scan_src]
    simp only [Tuple.fields, Option.isNone_some, Bool.false_eq_true, if_false, scan_dst]
  rw [haddresses]
  cases hr : r.ports with
  | none =>
      rfl
  | some p =>
      rw [hr, Option.isSome_some, eq_comm, Option.isSome_iff_exists] at h
      obtain ⟨q, hq⟩ := h
      simp only [List.foldl_cons, List.foldl_nil, scan_sport]
      simp only [Tuple.fields, hq, Option.map_some, Option.isNone_some, Bool.false_eq_true,
        if_false, scan_dport]

/-- The head of a word decides that it is no field. -/
theorem not_field_of_head {c : Char} (hc : c ≠ 's' ∧ c ≠ 'd') :
    ∀ name ∈ fieldNames, ¬name <+: c :: w := by
  simp only [fieldNames, src_chars, dst_chars, sport_chars, dport_chars]
  simp [List.cons_prefix_cons, hc.1.symm, hc.2.symm]

theorem not_field_of_chars (hne : w ≠ []) (h : ∀ c ∈ w, c ≠ 's' ∧ c ≠ 'd') :
    ∀ name ∈ fieldNames, ¬name <+: w := by
  cases w with
  | nil =>
      exact absurd rfl hne
  | cons c w =>
      exact not_field_of_head (h c List.mem_cons_self)

theorem digit_not_letter {c : Char} (h : c.isDigit = true) : c ≠ 's' ∧ c ≠ 'd' := by
  constructor
  · rintro rfl
    exact absurd h (by decide)
  · rintro rfl
    exact absurd h (by decide)

theorem number_not_field (n : Nat) : ∀ name ∈ fieldNames, ¬name <+: number n :=
  not_field_of_chars (HostAgent.toString_ne_nil n) fun c hc =>
    digit_not_letter (Json.all_isDigit_toString n c hc)

theorem State.not_field (s : State) : ∀ name ∈ fieldNames, ¬name <+: s.text := by
  refine not_field_of_chars s.nonempty ?_
  intro c hc
  rcases s.chars c hc with hupper | hdigit | rfl
  · constructor
    · rintro rfl
      exact absurd hupper (by decide)
    · rintro rfl
      exact absurd hupper (by decide)
  · exact digit_not_letter hdigit
  · decide

theorem L4.not_field (p : L4) : ∀ name ∈ fieldNames, ¬name <+: p.text := by
  have hall : ∀ p : L4, fieldNames.all (fun name => !decide (name <+: p.text)) = true := by
    intro p
    cases p <;> decide
  simpa using hall p

theorem Family.not_field (f : Family) : ∀ name ∈ fieldNames, ¬name <+: f.text := by
  have hall : ∀ f : Family, fieldNames.all (fun name => !decide (name <+: f.text)) = true := by
    intro f
    cases f <;> decide
  simpa using hall f

/-- The fields of an entry are those of its original tuple. -/
theorem Entry.scan_rest (e : Entry) :
    e.rest.foldl Fields.scan ⟨none, none, none, none⟩ = e.original.fields := by
  have hcolumns : ∀ w ∈ [number e.protoNumber, number e.timeout] ++
      e.state.toList.map State.text, ∀ name ∈ fieldNames, ¬name <+: w := by
    intro w hw
    simp only [List.mem_append, List.mem_cons, List.not_mem_nil, or_false, List.mem_map,
      Option.mem_toList] at hw
    rcases hw with (rfl | rfl) | ⟨s, _, rfl⟩
    · exact number_not_field _
    · exact number_not_field _
    · exact s.not_field
  have hnotes : ∀ ns : List Note, ∀ w ∈ ns.map Note.text,
      ∀ name ∈ fieldNames, ¬name <+: w := by
    intro ns w hw
    obtain ⟨n, _, rfl⟩ := List.mem_map.mp hw
    exact n.notField
  have hreply : ((e.reply.map Tuple.words).getD []).foldl Fields.scan e.original.fields =
      e.original.fields := by
    cases hr : e.reply with
    | none =>
        rfl
    | some t =>
        exact scan_later_tuple (e.ports_agree t (by rw [hr]; rfl))
  unfold Entry.rest
  rw [List.foldl_append, List.foldl_append, List.foldl_append, List.foldl_append,
    foldl_scan_other hcolumns, scan_first_tuple, foldl_scan_other (hnotes e.notes), hreply,
    foldl_scan_other (hnotes e.closing)]

theorem L4.mem_protocols (p : L4) : p.text ∈ protocols := by
  cases p <;> decide

/-- The flow of a line that has the words of an entry, after columns that mean
nothing. -/
theorem parseLine_words {line : List Char} {front : List (List Char)} {e : Entry}
    (hwords : words line = front ++ e.proto.text :: e.rest)
    (hfront : ∀ w ∈ front, Plain w ∧ w ∉ protocols ∧ ∀ name ∈ fieldNames, ¬name <+: w) :
    parseLine line = if e.shown then some e.row else none := by
  have hword : Word established := by
    rw [established_chars]
    exact word_of_all (by decide)
  have hline : "ESTABLISHED".toList <:+: line ↔ e.isEstablished = true := by
    rw [← e.established_iff]
    refine (infix_iff_words hword).trans ?_
    rw [hwords]
    constructor
    · rintro ⟨w, hw, hinside⟩
      rcases List.mem_append.mp hw with hf | hr
      · exact absurd hinside (hfront w hf).1.notState
      · rcases List.mem_cons.mp hr with rfl | hrest
        · exact absurd hinside e.proto.plain.notState
        · exact ⟨w, hrest, hinside⟩
    · rintro ⟨w, hw, hinside⟩
      exact ⟨w, by simp [hw], hinside⟩
  have hproto : (front ++ e.proto.text :: e.rest).find? (fun p => protocols.contains p) =
      some e.proto.text := by
    have hnone : front.find? (fun p => protocols.contains p) = none := by
      rw [List.find?_eq_none]
      intro w hw
      simpa using (hfront w hw).2.1
    rw [List.find?_append, hnone, Option.none_or, List.find?_cons_of_pos]
    simpa using e.proto.mem_protocols
  have hscan : (front ++ e.proto.text :: e.rest).foldl Fields.scan ⟨none, none, none, none⟩ =
      e.original.fields := by
    rw [List.foldl_append, foldl_scan_other fun w hw => (hfront w hw).2.2, List.foldl_cons,
      scan_other e.proto.not_field, e.scan_rest]
  unfold parseLine Entry.shown
  simp only [hline, hwords, hproto, hscan, Option.getD_some]
  cases e.isEstablished with
  | false =>
      rfl
  | true =>
      simp only [Tuple.fields, if_true, Bool.true_and, bne_iff_ne, ite_not]
      rfl

theorem parseLine_binaryLine (e : Entry) :
    parseLine e.binaryLine = if e.shown then some e.row else none := by
  refine @parseLine_words _ [] e e.words_binaryLine ?_
  intro w hw
  cases hw

theorem parseLine_procfsLine (e : Entry) :
    parseLine e.procfsLine = if e.shown then some e.row else none := by
  have hprotocols : ∀ f : Family, f.text ∉ protocols ∧ number f.number ∉ protocols := by
    intro f
    cases f <;> decide
  refine @parseLine_words _ [e.family.text, number e.family.number] e e.words_procfsLine ?_
  simp only [List.forall_mem_cons, List.not_mem_nil, false_imp_iff, implies_true, and_true]
  exact ⟨⟨e.family.plain, (hprotocols _).1, e.family.not_field⟩,
    number_plain _, (hprotocols _).2, number_not_field _⟩

end Scan

section Keys

variable {α : Type} {a b a' b' : List α} {c : α}

/-- Two texts that are equal are cut at their first separator alike. -/
theorem cut_first (ha : c ∉ a) (ha' : c ∉ a') (h : a ++ c :: b = a' ++ c :: b') :
    a = a' ∧ b = b' := by
  induction a generalizing a' with
  | nil =>
      cases a' with
      | nil =>
          rw [List.nil_append, List.nil_append, List.cons.injEq] at h
          exact ⟨rfl, h.2⟩
      | cons x a' =>
          rw [List.nil_append, List.cons_append, List.cons.injEq] at h
          exact absurd (by simp [h.1]) ha'
  | cons x a ih =>
      cases a' with
      | nil =>
          rw [List.nil_append, List.cons_append, List.cons.injEq] at h
          exact absurd (by simp [h.1]) ha
      | cons y a' =>
          simp only [List.cons_append, List.cons.injEq] at h
          obtain ⟨heq, hrest⟩ := ih (fun hmem => ha (List.mem_cons_of_mem _ hmem))
            (fun hmem => ha' (List.mem_cons_of_mem _ hmem)) h.2
          exact ⟨by rw [h.1, heq], hrest⟩

/-- And at their last one. -/
theorem cut_last (hb : c ∉ b) (hb' : c ∉ b') (h : a ++ c :: b = a' ++ c :: b') :
    a = a' ∧ b = b' := by
  have hrev := congrArg List.reverse h
  simp only [List.reverse_append, List.reverse_cons, List.append_assoc, List.singleton_append]
    at hrev
  obtain ⟨heq, heq'⟩ := cut_first (by simpa using hb) (by simpa using hb') hrev
  exact ⟨List.reverse_injective heq', List.reverse_injective heq⟩

/-- A row whose parts are those of an entry. -/
structure FlowRow.Clean (r : FlowRow) : Prop where
  src : ∀ c ∈ r.src, isAddressChar c = true
  dst : ∀ c ∈ r.dst, isAddressChar c = true
  sport : ∀ n ∈ r.sport, 0 ≤ n
  dport : ∀ n ∈ r.dport, 0 ≤ n
  proto : r.proto ∈ protocols

theorem none_chars : "None".toList = ['N', 'o', 'n', 'e'] := toList_of_eq rfl

theorem some_chars : "Some(".toList = ['S', 'o', 'm', 'e', '('] := toList_of_eq rfl

theorem arrow_chars : "->".toList = ['-', '>'] := toList_of_eq rfl

theorem debugPort_none : debugPort none = "None".toList := rfl

theorem debugPort_some (n : Int) :
    debugPort (some n) = "Some(".toList ++ (toString n).toList ++ [')'] := rfl

/-- The text of a port has neither a colon nor a dash. -/
theorem debugPort_chars {p : Option Int} (h : ∀ n ∈ p, 0 ≤ n) {c : Char}
    (hc : c ∈ debugPort p) : c ≠ ':' ∧ c ≠ '-' := by
  cases p with
  | none =>
      simp only [debugPort_none, none_chars, List.mem_cons, List.not_mem_nil, or_false] at hc
      rcases hc with rfl | rfl | rfl | rfl <;> decide
  | some n =>
      obtain ⟨m, rfl⟩ := Int.eq_ofNat_of_zero_le (h n rfl)
      simp only [debugPort_some, some_chars, List.mem_append, List.mem_cons, List.not_mem_nil,
        or_false] at hc
      rcases hc with ((rfl | rfl | rfl | rfl | rfl) | hdigit) | rfl
      all_goals first | decide | skip
      have hd := Json.all_isDigit_toString m c hdigit
      constructor
      · rintro rfl
        exact absurd hd (by decide)
      · rintro rfl
        exact absurd hd (by decide)

theorem debugPort_injective {p q : Option Int} (hp : ∀ n ∈ p, 0 ≤ n) (hq : ∀ n ∈ q, 0 ≤ n)
    (h : debugPort p = debugPort q) : p = q := by
  cases p with
  | none =>
      cases q with
      | none =>
          rfl
      | some n =>
          simp [debugPort_none, debugPort_some, none_chars, some_chars] at h
  | some n =>
      cases q with
      | none =>
          simp [debugPort_none, debugPort_some, none_chars, some_chars] at h
      | some m =>
          obtain ⟨n, rfl⟩ := Int.eq_ofNat_of_zero_le (hp n rfl)
          obtain ⟨m, rfl⟩ := Int.eq_ofNat_of_zero_le (hq m rfl)
          simp only [debugPort_some, List.append_cancel_left_eq, List.append_cancel_right_eq,
            List.append_assoc] at h
          have hread := congrArg readNumber h
          change readNumber (toString n).toList = readNumber (toString m).toList at hread
          rw [readNumber_toString, readNumber_toString, Option.some.injEq] at hread
          rw [hread]

theorem address_no_dash {w : List Char} (h : ∀ c ∈ w, isAddressChar c = true) :
    '-' ∉ w := fun hmem => absurd (h _ hmem) (by decide)

/-- Different rows have different keys, although an address may have colons. -/
theorem key_injective {r r' : FlowRow} (hr : r.Clean) (hr' : r'.Clean) (h : r.key = r'.key) :
    r = r' := by
  have hprotocols : ∀ p ∈ protocols, ':' ∉ p ∧ '-' ∉ p := by
    have hall : protocols.all (fun p => decide (':' ∉ p ∧ '-' ∉ p)) = true := by
      decide
    simpa using hall
  have hleft : ∀ r : FlowRow, r.Clean →
      '-' ∉ r.proto ++ ':' :: (r.src ++ ':' :: debugPort r.sport) := by
    intro r hr hmem
    simp only [List.mem_append, List.mem_cons] at hmem
    rcases hmem with hp | hbad | hs | hbad | hd
    · exact (hprotocols _ hr.proto).2 hp
    · cases hbad
    · exact address_no_dash hr.src hs
    · cases hbad
    · exact (debugPort_chars hr.sport hd).2 rfl
  have hkey : ∀ r : FlowRow, r.key =
      (r.proto ++ ':' :: (r.src ++ ':' :: debugPort r.sport)) ++
        '-' :: '>' :: (r.dst ++ ':' :: debugPort r.dport) := by
    intro r
    simp [FlowRow.key, arrow_chars]
  rw [hkey, hkey] at h
  obtain ⟨hfront, hback⟩ := cut_first (hleft r hr) (hleft r' hr') h
  obtain ⟨hproto, hfront⟩ := cut_first (hprotocols _ hr.proto).1 (hprotocols _ hr'.proto).1 hfront
  have hcolon : ∀ {p : Option Int}, (∀ n ∈ p, 0 ≤ n) → ':' ∉ debugPort p := fun hp hmem =>
    (debugPort_chars hp hmem).1 rfl
  obtain ⟨hsrc, hsport⟩ := cut_last (hcolon hr.sport) (hcolon hr'.sport) hfront
  obtain ⟨hdst, hdport⟩ := cut_last (hcolon hr.dport) (hcolon hr'.dport) (List.cons.inj hback).2
  have hsport := debugPort_injective hr.sport hr'.sport hsport
  have hdport := debugPort_injective hr.dport hr'.dport hdport
  cases r
  cases r'
  simp_all

theorem Entry.row_clean (e : Entry) : e.row.Clean where
  src := e.original.src.chars
  dst := e.original.dst.chars
  sport := by
    intro n hn
    obtain ⟨p, _, rfl⟩ := Option.map_eq_some_iff.mp hn
    exact Int.natCast_nonneg _
  dport := by
    intro n hn
    obtain ⟨p, _, rfl⟩ := Option.map_eq_some_iff.mp hn
    exact Int.natCast_nonneg _
  proto := e.proto.mem_protocols

/-- The loop over the lines keeps the first flow of every key. -/
theorem foldl_addLine (mkEndpoint : List Char → Endpoint) (ls : List (List Char))
    (hinj : ∀ r ∈ ls.filterMap parseLine, ∀ r' ∈ ls.filterMap parseLine, r.key = r'.key → r = r')
    (seen : List (List Char)) (flows : List Flow) :
    (ls.foldl (addLine mkEndpoint) (seen, flows)).2 =
      flows ++ (((ls.filterMap parseLine).filter fun r => r.key ∉ seen).eraseDups).map
        (FlowRow.flow mkEndpoint) := by
  induction ls generalizing seen flows with
  | nil =>
      simp
  | cons l ls ih =>
      cases hl : parseLine l with
      | none =>
          rw [List.filterMap_cons_none hl] at hinj ⊢
          rw [List.foldl_cons]
          simp only [addLine, hl]
          exact ih hinj seen flows
      | some r =>
          rw [List.filterMap_cons_some hl] at hinj ⊢
          have htail := ih fun r hr r' hr' =>
            hinj r (List.mem_cons_of_mem _ hr) r' (List.mem_cons_of_mem _ hr')
          rw [List.foldl_cons]
          simp only [addLine, hl]
          by_cases hseen : r.key ∈ seen
          · rw [if_pos hseen, htail, List.filter_cons_of_neg (by simpa using hseen)]
          · -- the later rows with this key are those that are equal to it
            have hsame : (ls.filterMap parseLine).filter (fun r' => r'.key ∉ r.key :: seen) =
                ((ls.filterMap parseLine).filter fun r' => r'.key ∉ seen).filter
                  fun r' => !r' == r := by
              rw [List.filter_filter]
              refine List.filter_congr ?_
              intro r' hr'
              have hiff : r'.key = r.key ↔ r' = r :=
                ⟨fun h => hinj r' (List.mem_cons_of_mem _ hr') r List.mem_cons_self h,
                  fun h => by rw [h]⟩
              by_cases heq : r' = r
              · simp [heq]
              · have hkey : r'.key ≠ r.key := fun h => heq (hiff.mp h)
                simp [heq, hkey]
            rw [if_neg hseen, htail, hsame, List.filter_cons_of_pos (by simpa using hseen),
              List.eraseDups_cons, List.map_cons, List.append_assoc, List.singleton_append]

end Keys

/-- The rows of a printed table. -/
theorem filterMap_parseLine {line : Entry → List Char}
    (hline : ∀ e, parseLine (line e) = if e.shown then some e.row else none) (es : List Entry) :
    (es.map line).filterMap parseLine = (es.filter Entry.shown).map Entry.row := by
  induction es with
  | nil =>
      rfl
  | cons e es ih =>
      rw [List.map_cons]
      cases hshown : e.shown with
      | true =>
          rw [List.filterMap_cons_some (by rw [hline, hshown]; rfl), ih,
            List.filter_cons_of_pos hshown, List.map_cons]
      | false =>
          rw [List.filterMap_cons_none (by rw [hline, hshown]; rfl), ih,
            List.filter_cons_of_neg (by simp [hshown])]

theorem parseConntrack_lines {line : Entry → List Char}
    (hbreak : ∀ e, '\n' ∉ line e ∧ '\r' ∉ line e)
    (hline : ∀ e, parseLine (line e) = if e.shown then some e.row else none)
    (mkEndpoint : List Char → Endpoint) (es : List Entry) :
    parseConntrack (unlines (es.map line)) mkEndpoint =
      (flowsOf es).map (FlowRow.flow mkEndpoint) := by
  have hlines : lines (unlines (es.map line)) = es.map line := by
    refine lines_unlines ?_
    intro l hl
    obtain ⟨e, _, rfl⟩ := List.mem_map.mp hl
    exact hbreak e
  unfold parseConntrack flowsOf
  rw [hlines, foldl_addLine, filterMap_parseLine hline]
  · simp
  · rw [filterMap_parseLine hline]
    intro r hr r' hr' h
    obtain ⟨e, _, rfl⟩ := List.mem_map.mp hr
    obtain ⟨e', _, rfl⟩ := List.mem_map.mp hr'
    exact key_injective e.row_clean e'.row_clean h

/--
The parser gets back the flows of a connection table from either of its texts: the
rows of the original directions of the established entries between two different
addresses, in order, each once, and each of them.
-/
theorem parse_conntrack_exact (mkEndpoint : List Char → Endpoint) (es : List Entry) :
    parseConntrack (unlines (es.map Entry.binaryLine)) mkEndpoint =
        (flowsOf es).map (FlowRow.flow mkEndpoint) ∧
      parseConntrack (unlines (es.map Entry.procfsLine)) mkEndpoint =
        (flowsOf es).map (FlowRow.flow mkEndpoint) ∧
      ∀ r, r ∈ flowsOf es ↔ ∃ e ∈ es, e.shown = true ∧ e.row = r := by
  refine ⟨parseConntrack_lines Entry.binaryLine_no_break parseLine_binaryLine mkEndpoint es,
    parseConntrack_lines Entry.procfsLine_no_break parseLine_procfsLine mkEndpoint es, ?_⟩
  intro r
  simp [flowsOf, List.mem_eraseDups, and_assoc]

end Connections
end Api
end ZeroVpn
