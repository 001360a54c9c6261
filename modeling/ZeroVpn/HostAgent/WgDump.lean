import Mathlib.Algebra.Group.Int.Defs
import Mathlib.Algebra.Group.Nat.Defs
import ZeroVpn.HostAgent.WgVerify

/-!
# The dump of the interface

`parse_wg_dump` of `crates/zerovpn-host-agent/src/lib.rs`.  `wg show wg0 dump`
prints one line for the interface and one for every peer, with columns separated
by tabs.  The private key of the interface and the preshared keys of the peers
are among the columns; the parser returns neither, and its result does not depend
on them.
-/

namespace ZeroVpn

open Library Library.Text

namespace HostAgent

/-- `parse::<u64>()`. -/
def parseU64 (cs : List Char) : Except String UInt64 :=
  (parseUnsigned (2 ^ 64) cs).map UInt64.ofNat

/-- `parse::<i64>()`. -/
def parseI64 (cs : List Char) : Except String Int64 :=
  if cs.head? = some '-' then
    (parseDigits (2 ^ 63 + 1) "number too small to fit in target type" cs.tail).map fun n : Nat =>
      Int64.ofInt (-n)
  else (parseUnsigned (2 ^ 63) cs).map fun n : Nat => Int64.ofInt n

/-- A line of a peer, by its columns. -/
def parsePeerColumns : List (List Char) → Except String Wire.PeerStats
  | [publicKey, _, endpoint, allowedIps, latestHandshake, rxBytes, txBytes, _] => do
      ensure (!publicKey.isEmpty) "missing public key"
      let latestHandshake ← parseI64 latestHandshake
      let rxBytes ← parseU64 rxBytes
      let txBytes ← parseU64 txBytes
      pure
        { publicKey := String.ofList publicKey
          endpoint := if endpoint ≠ "(none)".toList ∧ endpoint ≠ [] then
            some (String.ofList endpoint) else none
          allowedIps := String.ofList allowedIps
          latestHandshake := latestHandshake
          rxBytes := rxBytes
          txBytes := txBytes }
  | _ => .error "invalid peer row"

/-- `parse_wg_dump`. -/
def parseWgDump (dump : List Char) : Except String (List Wire.PeerStats) :=
  match lines dump with
  | [] => .error "missing interface row"
  | header :: rows => do
      ensure ((header.splitOn '\t').length == 4) "invalid interface row"
      rows.mapM fun line => parsePeerColumns (line.splitOn '\t')

/-- A column of the dump. -/
def Column (w : List Char) : Prop := '\t' ∉ w ∧ '\n' ∉ w ∧ '\r' ∉ w

/-- The line of the interface: private key, public key, port and firewall mark. -/
structure DumpInterface where
  privateKey : List Char
  publicKey : List Char
  listenPort : List Char
  fwmark : List Char
  clean : ∀ w ∈ [privateKey, publicKey, listenPort, fwmark], Column w

/-- The line of a peer, with what `wg` prints in it. -/
structure DumpPeer where
  publicKey : List Char
  presharedKey : List Char
  endpoint : Option (List Char)
  allowedIps : List Char
  latestHandshake : Int64
  rxBytes : UInt64
  txBytes : UInt64
  keepalive : List Char
  clean : ∀ w ∈ publicKey :: presharedKey :: allowedIps :: keepalive :: endpoint.toList, Column w
  publicKey_ne : publicKey ≠ []
  endpoint_ne : ∀ e ∈ endpoint, e ≠ [] ∧ e ≠ "(none)".toList

namespace DumpInterface

def columns (i : DumpInterface) : List (List Char) :=
  [i.privateKey, i.publicKey, i.listenPort, i.fwmark]

end DumpInterface

namespace DumpPeer

def columns (p : DumpPeer) : List (List Char) :=
  [p.publicKey, p.presharedKey, p.endpoint.getD "(none)".toList, p.allowedIps,
    (toString p.latestHandshake.toInt).toList, (toString p.rxBytes.toNat).toList,
    (toString p.txBytes.toNat).toList, p.keepalive]

/-- What the line says without its secrets. -/
def stats (p : DumpPeer) : Wire.PeerStats where
  publicKey := String.ofList p.publicKey
  endpoint := p.endpoint.map String.ofList
  allowedIps := String.ofList p.allowedIps
  latestHandshake := p.latestHandshake
  rxBytes := p.rxBytes
  txBytes := p.txBytes

end DumpPeer

/-- Columns as a line. -/
def tabbed (columns : List (List Char)) : List Char := ['\t'].intercalate columns

/-- `wg show wg0 dump`. -/
def renderDump (i : DumpInterface) (peers : List DumpPeer) : List Char :=
  unlines (tabbed i.columns :: peers.map fun p => tabbed p.columns)

/-- The columns of a dump, line by line. -/
def dumpColumns (dump : List Char) : List (List (List Char)) :=
  (lines dump).map fun line => line.splitOn '\t'

/-- The columns with the private key and the preshared keys blanked out. -/
def hideSecrets : List (List (List Char)) → List (List (List Char))
  | [] => []
  | header :: rows => header.set 0 [] :: rows.map fun row => row.set 1 []

/-- The text is a decimal number with an optional sign. -/
def Denotes (cs : List Char) (n : Int) : Prop :=
  ∃ digits : List Char, digits ≠ [] ∧ (∀ c ∈ digits, c.isDigit = true) ∧
    ((cs = digits ∨ cs = '+' :: digits) ∧ n = Nat.ofDigitChars 10 digits 0 ∨
      cs = '-' :: digits ∧ n = -(Nat.ofDigitChars 10 digits 0 : Int))

/-- A line of a peer that cannot be taken. -/
def BadRow (row : List (List Char)) : Prop :=
  row.length ≠ 8 ∨
    (∃ cs, row[4]? = some cs ∧ ¬ ∃ n, Denotes cs n ∧ -2 ^ 63 ≤ n ∧ n < 2 ^ 63) ∨
    ∃ k cs, (k = 5 ∨ k = 6) ∧ row[k]? = some cs ∧ ¬ ∃ n, Denotes cs n ∧ 0 ≤ n ∧ n < 2 ^ 64

section Numbers

/-- The digits after an optional plus. -/
theorem denotes_unsigned {cs : List Char} {n : Nat}
    (h : readNumber (if cs.head? = some '+' then cs.tail else cs) = some n) : Denotes cs n := by
  obtain ⟨hne, hall, hn⟩ := readNumber_denotes h
  refine ⟨_, hne, hall, .inl ⟨?_, by rw [hn]⟩⟩
  split
  · rename_i hplus
    exact .inr (List.eq_cons_of_mem_head? hplus)
  · exact .inl rfl

/-- A parse whose result is converted. -/
theorem map_eq_ok {α β : Type} {f : α → β} {x : Except String α} {b : β} (h : x.map f = .ok b) :
    ∃ a, x = .ok a := by
  cases x with
  | error e =>
      cases h
  | ok a =>
      exact ⟨a, rfl⟩

theorem parseU64_denotes {cs : List Char} {v : UInt64} (h : parseU64 cs = .ok v) :
    ∃ n, Denotes cs n ∧ 0 ≤ n ∧ n < 2 ^ 64 := by
  obtain ⟨n, hn⟩ := map_eq_ok h
  obtain ⟨hread, hlt⟩ := parseUnsigned_eq_ok hn
  exact ⟨n, denotes_unsigned hread, by omega, by omega⟩

theorem parseI64_denotes {cs : List Char} {v : Int64} (h : parseI64 cs = .ok v) :
    ∃ n, Denotes cs n ∧ -2 ^ 63 ≤ n ∧ n < 2 ^ 63 := by
  unfold parseI64 at h
  split at h
  · rename_i hminus
    obtain ⟨n, hn⟩ := map_eq_ok h
    obtain ⟨hread, hlt⟩ := parseDigits_eq_ok.mp hn
    obtain ⟨hne, hall, hvalue⟩ := readNumber_denotes hread
    refine ⟨-n, ⟨cs.tail, hne, hall, .inr ⟨List.eq_cons_of_mem_head? hminus, by rw [hvalue]⟩⟩, ?_⟩
    omega
  · obtain ⟨n, hn⟩ := map_eq_ok h
    obtain ⟨hread, hlt⟩ := parseUnsigned_eq_ok hn
    exact ⟨n, denotes_unsigned hread, by omega, by omega⟩

theorem parseU64_toString (v : UInt64) : parseU64 (toString v.toNat).toList = .ok v := by
  unfold parseU64
  rw [parseUnsigned_toString v.toNat_lt]
  exact congrArg Except.ok UInt64.ofNat_toNat

theorem parseI64_toString (v : Int64) : parseI64 (toString v.toInt).toList = .ok v := by
  have hle := v.le_toInt
  have hlt := v.toInt_lt
  have hback := Int64.ofInt_toInt v
  unfold parseI64
  cases hv : v.toInt with
  | ofNat n =>
      rw [hv] at hlt hback
      have hn : n < 2 ^ 63 := by
        have : (n : Int) < 2 ^ 63 := hlt
        omega
      change (if (toString n).toList.head? = some '-' then _ else _) = _
      rw [if_neg (head_toString n (by decide)),
        show (toString (Int.ofNat n)).toList = (toString n).toList from rfl,
        parseUnsigned_toString hn]
      exact congrArg Except.ok hback
  | negSucc n =>
      rw [hv] at hle hback
      have hn : n + 1 < 2 ^ 63 + 1 := by
        omega
      rw [Json.toString_negSucc, if_pos (List.head?_cons), List.tail_cons,
        parseDigits_eq_ok.mpr ⟨readNumber_toString (n + 1), hn⟩]
      exact congrArg Except.ok hback

end Numbers

section Rows

theorem mapM_ok {α β : Type} {f : α → Except String β} {g : α → β} {as : List α}
    (h : ∀ a ∈ as, f a = .ok (g a)) : as.mapM f = .ok (as.map g) := by
  induction as with
  | nil =>
      rfl
  | cons a as ih =>
      rw [List.mapM_cons, h a List.mem_cons_self, ih fun b hb => h b (List.mem_cons_of_mem _ hb)]
      rfl

/-- What a list of results has in it. -/
theorem mapM_ok_mem {α β : Type} {f : α → Except String β} {as : List α} {bs : List β}
    (h : as.mapM f = .ok bs) : ∀ a ∈ as, ∃ b, f a = .ok b := by
  induction as generalizing bs with
  | nil =>
      intro a ha
      cases ha
  | cons a as ih =>
      rw [List.mapM_cons, bind_eq_ok] at h
      obtain ⟨b, hb, h⟩ := h
      obtain ⟨bs', hbs, _⟩ := bind_eq_ok.mp h
      exact List.forall_mem_cons.mpr ⟨⟨b, hb⟩, ih hbs⟩

/-- The parser, on columns. -/
def parseDumpColumns : List (List (List Char)) → Except String (List Wire.PeerStats)
  | [] => .error "missing interface row"
  | header :: rows => do
      ensure (header.length == 4) "invalid interface row"
      rows.mapM parsePeerColumns

theorem parseWgDump_columns (dump : List Char) :
    parseWgDump dump = parseDumpColumns (dumpColumns dump) := by
  unfold parseWgDump dumpColumns
  cases lines dump with
  | nil =>
      rfl
  | cons header rows =>
      simp only [List.map_cons, parseDumpColumns, List.mapM_map]
      rfl

/-- The preshared key is not looked at. -/
theorem parsePeerColumns_set (row : List (List Char)) (w : List Char) :
    parsePeerColumns (row.set 1 w) = parsePeerColumns row := by
  rcases row with _ | ⟨_, _ | ⟨_, _ | ⟨_, _ | ⟨_, _ | ⟨_, _ | ⟨_, _ | ⟨_, _ | ⟨_, _ | _⟩⟩⟩⟩⟩⟩⟩⟩ <;>
    rfl

/-- Dumps that differ only in their secrets give one result. -/
theorem parseWgDump_hidden {dump dump' : List Char}
    (h : hideSecrets (dumpColumns dump) = hideSecrets (dumpColumns dump')) :
    parseWgDump dump = parseWgDump dump' := by
  rw [parseWgDump_columns, parseWgDump_columns]
  cases hd : dumpColumns dump with
  | nil =>
      cases hd' : dumpColumns dump' with
      | nil =>
          rfl
      | cons header' rows' =>
          rw [hd, hd'] at h
          cases h
  | cons header rows =>
      cases hd' : dumpColumns dump' with
      | nil =>
          rw [hd, hd'] at h
          cases h
      | cons header' rows' =>
          rw [hd, hd'] at h
          obtain ⟨hheader, hrows⟩ := List.cons.inj h
          have hlength : header.length = header'.length := by
            have hset := congrArg List.length hheader
            rwa [List.length_set, List.length_set] at hset
          have hmap : rows.mapM parsePeerColumns = rows'.mapM parsePeerColumns := by
            have hparse := congrArg (List.mapM parsePeerColumns) hrows
            have hset : (parsePeerColumns ∘ fun row => row.set 1 []) = parsePeerColumns :=
              funext fun row => parsePeerColumns_set row []
            rwa [List.mapM_map, List.mapM_map, hset] at hparse
          simp only [parseDumpColumns, hlength, hmap]

/-- A line that is taken has eight columns and numbers in range. -/
theorem parsePeerColumns_ok {row : List (List Char)} {stats : Wire.PeerStats}
    (h : parsePeerColumns row = .ok stats) : ¬ BadRow row := by
  unfold parsePeerColumns at h
  split at h
  · simp only [bind_eq_ok] at h
    obtain ⟨_, _, _, hhandshake, _, hrx, _, htx, _⟩ := h
    rintro (hlength | ⟨cs, hcs, hbad⟩ | ⟨k, cs, rfl | rfl, hcs, hbad⟩)
    · exact hlength rfl
    · cases hcs
      exact hbad (parseI64_denotes hhandshake)
    · cases hcs
      exact hbad (parseU64_denotes hrx)
    · cases hcs
      exact hbad (parseU64_denotes htx)
  · cases h

/-- The line of a peer is read back. -/
theorem parsePeerColumns_peer (p : DumpPeer) : parsePeerColumns p.columns = .ok p.stats := by
  have hkey : (!p.publicKey.isEmpty) = true := by
    simpa using p.publicKey_ne
  have hendpoint : (if p.endpoint.getD "(none)".toList ≠ "(none)".toList ∧
      p.endpoint.getD "(none)".toList ≠ [] then
        some (String.ofList (p.endpoint.getD "(none)".toList)) else none) =
      p.endpoint.map String.ofList := by
    cases he : p.endpoint with
    | none =>
        rw [Option.getD_none, if_neg fun h => h.1 rfl]
        rfl
    | some e =>
        obtain ⟨hne, hother⟩ := p.endpoint_ne e he
        rw [Option.getD_some, if_pos ⟨hother, hne⟩]
        rfl
  simp only [DumpPeer.columns, parsePeerColumns, hkey, parseI64_toString, parseU64_toString,
    hendpoint]
  rfl

end Rows

section Render

theorem column_word {w : List Char} (h : Word w) : Column w :=
  ⟨fun hc => absurd (h.2 _ hc) (by decide), h.no_break⟩

theorem DumpPeer.column (p : DumpPeer) : ∀ w ∈ p.columns, Column w := by
  have hclean := p.clean
  simp only [List.forall_mem_cons] at hclean
  obtain ⟨hkey, hpsk, hips, hkeepalive, hendpoint⟩ := hclean
  have hnone : Column "(none)".toList := column_word (word_of_all (by decide))
  simp only [columns, List.forall_mem_cons]
  refine ⟨hkey, hpsk, ?_, hips, ?_, column_word (word_toString _), column_word (word_toString _),
    hkeepalive, nofun⟩
  · cases he : p.endpoint with
    | none =>
        exact hnone
    | some e =>
        exact hendpoint e (by rw [he]; exact List.mem_singleton_self e)
  · cases p.latestHandshake.toInt with
    | ofNat n =>
        exact column_word (word_toString n)
    | negSucc n =>
        rw [Json.toString_negSucc]
        refine column_word ⟨List.cons_ne_nil _ _, ?_⟩
        exact List.forall_mem_cons.mpr ⟨by decide, (word_toString (n + 1)).2⟩

/-- A line of clean columns is a line. -/
theorem tabbed_clean {columns : List (List Char)} (h : ∀ w ∈ columns, Column w) :
    '\n' ∉ tabbed columns ∧ '\r' ∉ tabbed columns := by
  constructor
  · intro hmem
    rcases mem_intercalate hmem with htab | ⟨w, hw, hc⟩
    · revert htab
      decide
    · exact (h w hw).2.1 hc
  · intro hmem
    rcases mem_intercalate hmem with htab | ⟨w, hw, hc⟩
    · revert htab
      decide
    · exact (h w hw).2.2 hc

theorem splitOn_tabbed {columns : List (List Char)} (hne : columns ≠ [])
    (h : ∀ w ∈ columns, Column w) : (tabbed columns).splitOn '\t' = columns :=
  List.splitOn_intercalate '\t' (fun w hw => (h w hw).1) hne

theorem dumpColumns_render (i : DumpInterface) (peers : List DumpPeer) :
    dumpColumns (renderDump i peers) = i.columns :: peers.map DumpPeer.columns := by
  have hlines : lines (renderDump i peers) =
      tabbed i.columns :: peers.map fun p => tabbed p.columns := by
    refine lines_unlines (List.forall_mem_cons.mpr ⟨tabbed_clean i.clean, fun l hl => ?_⟩)
    obtain ⟨p, _, rfl⟩ := List.mem_map.mp hl
    exact tabbed_clean p.column
  have hinterface : (tabbed i.columns).splitOn '\t' = i.columns :=
    splitOn_tabbed (List.cons_ne_nil _ _) i.clean
  have hpeers : ∀ p : DumpPeer, (tabbed p.columns).splitOn '\t' = p.columns :=
    fun p => splitOn_tabbed (List.cons_ne_nil _ _) p.column
  simp only [dumpColumns, hlines, List.map_cons, List.map_map, hinterface, Function.comp_def,
    hpeers]

end Render

/-- The parser of the dump: it reads every printed dump back, does not depend on the secrets,
and takes no dump with a bad line. -/
theorem parse_wg_dump_exact :
    (∀ (i : DumpInterface) (peers : List DumpPeer),
      parseWgDump (renderDump i peers) = .ok (peers.map DumpPeer.stats)) ∧
    (∀ dump dump' : List Char, hideSecrets (dumpColumns dump) = hideSecrets (dumpColumns dump') →
      parseWgDump dump = parseWgDump dump') ∧
    ∀ dump : List Char,
      ((∀ header ∈ (dumpColumns dump).head?, header.length ≠ 4) ∨
        ∃ row ∈ (dumpColumns dump).tail, BadRow row) →
      ∃ message, parseWgDump dump = .error message := by
  refine ⟨fun i peers => ?_, fun dump dump' h => parseWgDump_hidden h, fun dump h => ?_⟩
  · rw [parseWgDump_columns, dumpColumns_render]
    change (peers.map DumpPeer.columns).mapM parsePeerColumns = _
    rw [List.mapM_map]
    exact mapM_ok fun p _ => parsePeerColumns_peer p
  · cases hparse : parseWgDump dump with
    | error message =>
        exact ⟨message, rfl⟩
    | ok stats =>
        exfalso
        rw [parseWgDump_columns] at hparse
        cases hcolumns : dumpColumns dump with
        | nil =>
            rw [hcolumns] at hparse
            cases hparse
        | cons header rows =>
            rw [hcolumns] at hparse h
            obtain ⟨_, hheader, hrows⟩ := bind_eq_ok.mp hparse
            rcases h with hcount | ⟨row, hrow, hbad⟩
            · exact hcount header rfl (by simpa using hheader)
            · obtain ⟨_, hok⟩ := mapM_ok_mem hrows row hrow
              exact parsePeerColumns_ok hok hbad

/-- A dump of one peer with this preshared key and this counter. -/
def sampleDump (presharedKey rxBytes : String) : List Char :=
  ("private\tpublic\t51820\toff\npeer\t" ++ presharedKey ++ "\t(none)\t10.0.0.2/32\t0\t" ++ rxBytes ++
    "\t40\toff\n").toList

theorem parse_wg_dump_sample :
    parseWgDump (sampleDump "psk" "120") = .ok [⟨"peer", none, "10.0.0.2/32", 0, 120, 40⟩] ∧
      parseWgDump (sampleDump "other" "120") = parseWgDump (sampleDump "psk" "120") ∧
      ∃ message, parseWgDump (sampleDump "psk" "bad") = .error message := by
  refine ⟨by decide, parse_wg_dump_exact.2.1 _ _ (by decide),
    parse_wg_dump_exact.2.2 _ (.inr ⟨_, List.mem_singleton_self _, .inr (.inr ⟨5, "bad".toList,
      .inl rfl, by decide, ?_⟩)⟩)⟩
  rintro ⟨n, ⟨digits, _, hall, hcs⟩, _⟩
  have hb : 'b' ∈ "bad".toList := by decide
  have hhead : "bad".toList.head? = some 'b' := by decide
  rcases hcs with ⟨hcs | hcs, _⟩ | ⟨hcs, _⟩
  · exact absurd (hall 'b' (hcs ▸ hb)) (by decide)
  · rw [hcs, List.head?_cons] at hhead
    exact absurd hhead (by decide)
  · rw [hcs, List.head?_cons] at hhead
    exact absurd hhead (by decide)

end HostAgent
end ZeroVpn
