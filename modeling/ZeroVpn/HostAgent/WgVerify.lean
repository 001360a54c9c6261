import Mathlib.Data.List.Nodup
import Mathlib.Data.List.Perm.Subperm
import ZeroVpn.HostAgent.WgConfig

/-!
# Verifying the live interface

`verify_wireguard_state` and `parse_peer_values` of
`crates/zerovpn-host-agent/src/host_commands.rs`, with what `wg show` and
`ip address` print about an interface.

A `BTreeMap` is the list of its entries, with one entry for a key.
-/

namespace ZeroVpn

open Library Library.Text

namespace HostAgent

/-- The observations of `verify_wireguard_state`. -/
inductive WgObservation where
  /-- `wg show wg0 public-key`. -/
  | publicKey
  /-- `wg show wg0 listen-port`. -/
  | listenPort
  /-- `ip -4 -o address show dev wg0`. -/
  | addresses
  /-- `wg show wg0 allowed-ips`. -/
  | allowedIps
  /-- `wg show wg0 persistent-keepalive`. -/
  | persistentKeepalive
  /-- `wg show wg0 preshared-keys`. -/
  | presharedKeys
  deriving DecidableEq, Repr

section Parser

/-- The entries of a map. -/
abbrev Values := List (List Char × List Char)

/-- `insert(key, value).is_none()`, and the map after it. -/
def insertNew (values : Values) (key value : List Char) : Option Values :=
  if values.any fun e => e.1 == key then none else some (values ++ [(key, value)])

def Values.get (values : Values) (key : List Char) : Option (List Char) :=
  (values.find? fun e => e.1 == key).map Prod.snd

/-- `==` on maps. -/
def Values.same (a b : Values) : Bool := a.length == b.length && a.all fun e => b.contains e

/-- `collect`: a later entry replaces an earlier one. -/
def collectValues (entries : List (List Char × List Char)) : Values :=
  entries.foldl (fun values e => (values.filter fun e' => e'.1 != e.1) ++ [e]) []

/-- The messages of a loop over the lines of an output. -/
structure ParseMessages where
  noKey : String
  noValue : String
  moreValues : String
  duplicate : String
  deriving DecidableEq, Repr

/-- One line: a key and a value. -/
def parseLine (messages : ParseMessages) (values : Values) (line : List Char) :
    Except String Values :=
  match Text.words line with
  | [] => .error messages.noKey
  | [_] => .error messages.noValue
  | [key, value] =>
      match insertNew values key value with
      | some values => .ok values
      | none => .error messages.duplicate
  | _ => .error messages.moreValues

def parseValues (messages : ParseMessages) (output : List Char) : Except String Values :=
  (lines output).foldlM (parseLine messages) []

/-- The loop over the allowed addresses. -/
def parseAllowedIps (output : List Char) : Except String Values :=
  parseValues ⟨"peer public key missing", "peer allowed IP missing",
    "unexpected peer allowed IPs", "duplicate observed peer"⟩ output

/-- `parse_peer_values`. -/
def parsePeerValues (output : List Char) : Except String Values :=
  parseValues ⟨"peer key missing", "peer value missing", "invalid peer attribute output",
    "invalid peer attribute output"⟩ output

/-- `context(…)?` on an option. -/
def expect {α : Type} (message : String) : Option α → Except String α
  | some a => .ok a
  | none => .error message

theorem expect_eq_ok {α : Type} {message : String} {x : Option α} {a : α} :
    expect message x = .ok a ↔ x = some a := by
  cases x with
  | none =>
      exact ⟨fun h => (by cases h), fun h => (by cases h)⟩
  | some b =>
      exact ⟨fun h => congrArg some (Except.ok.inj h), fun h => congrArg Except.ok (Option.some.inj h)⟩

/-- The digits of an integer, whose value has to stay below a bound.  Digits that go beyond it are
noticed before what comes after them. -/
def parseDigits (bound : Nat) (overflow : String) (digits : List Char) : Except String Nat :=
  if Nat.ofDigitChars 10 (digits.takeWhile Char.isDigit) 0 < bound then
    expect "invalid digit found in string" (readNumber digits)
  else .error overflow

/-- `parse` into an unsigned type, or of a number without a minus into a signed one. -/
def parseUnsigned (bound : Nat) (cs : List Char) : Except String Nat :=
  if cs = [] then .error "cannot parse integer from empty string"
  else parseDigits bound "number too large to fit in target type"
    (if cs.head? = some '+' then cs.tail else cs)

/-- `parse::<u16>()`. -/
def parseU16 (cs : List Char) : Except String Nat := parseUnsigned 65536 cs

/-- `parsed_interval`. -/
def parsedInterval (interval : List Char) : Except String Nat :=
  if interval = "off".toList then .ok 0 else parseU16 interval

section Numbers

theorem readNumber_denotes {cs : List Char} {n : Nat} (h : readNumber cs = some n) :
    cs ≠ [] ∧ (∀ c ∈ cs, c.isDigit = true) ∧ n = Nat.ofDigitChars 10 cs 0 := by
  unfold readNumber Json.readNat at h
  simp only at h
  split at h
  · rename_i m hread
    split at hread
    · cases hread
    · rename_i hdigits
      simp only [Option.some.injEq, Prod.mk.injEq] at hread h
      obtain ⟨rfl, hrest⟩ := hread
      have hall := List.dropWhile_eq_nil_iff.mp hrest
      have htake : cs.takeWhile Char.isDigit = cs := List.takeWhile_eq_self_iff.mpr hall
      rw [htake] at hdigits h
      exact ⟨hdigits, hall, h.symm⟩
  · cases h

/-- A number of digits only. -/
theorem parseDigits_eq_ok {bound : Nat} {overflow : String} {digits : List Char} {n : Nat} :
    parseDigits bound overflow digits = .ok n ↔ readNumber digits = some n ∧ n < bound := by
  have hvalue : ∀ m, readNumber digits = some m →
      Nat.ofDigitChars 10 (digits.takeWhile Char.isDigit) 0 = m := by
    intro m hread
    obtain ⟨_, hall, hm⟩ := readNumber_denotes hread
    rw [List.takeWhile_eq_self_iff.mpr hall, hm]
  unfold parseDigits
  split
  · rename_i hlt
    rw [expect_eq_ok]
    exact ⟨fun hread => ⟨hread, hvalue n hread ▸ hlt⟩, fun h => h.1⟩
  · rename_i hge
    refine ⟨fun h => (by cases h), ?_⟩
    rintro ⟨hread, hn⟩
    exact absurd (hvalue n hread ▸ hn) hge

theorem parseUnsigned_eq_ok {bound : Nat} {cs : List Char} {n : Nat}
    (h : parseUnsigned bound cs = .ok n) :
    readNumber (if cs.head? = some '+' then cs.tail else cs) = some n ∧ n < bound := by
  unfold parseUnsigned at h
  split at h
  · cases h
  · exact parseDigits_eq_ok.mp h

/-- A number that is printed has no sign but its own. -/
theorem head_toString (n : Nat) {c : Char} (hc : c.isDigit = false) :
    (toString n).toList.head? ≠ some c := by
  intro hhead
  have hdigit := Json.all_isDigit_toString n c (List.mem_of_mem_head? hhead)
  rw [hc] at hdigit
  cases hdigit

/-- A printed number is read back. -/
theorem parseUnsigned_toString {bound n : Nat} (h : n < bound) :
    parseUnsigned bound (toString n).toList = .ok n := by
  have hread := readNumber_toString n
  unfold parseUnsigned
  rw [if_neg (readNumber_denotes hread).1, if_neg (head_toString n (by decide))]
  exact parseDigits_eq_ok.mpr ⟨hread, h⟩

end Numbers

/-- The checks of one enabled peer. -/
def verifyPeer (keepalive preshared : Values) (peer : DesiredPeer) : Except String Unit := do
  let interval ← expect "peer keepalive missing" (keepalive.get peer.publicKey.toList)
  let parsed ← parsedInterval interval
  ensure (parsed == peer.persistentKeepalive) "peer keepalive mismatch"
  let actual ← expect "peer preshared key missing" (preshared.get peer.publicKey.toList)
  let agrees := match peer.presharedKey with
    | some psk => actual == psk.toList
    | none => actual == "(none)".toList
  ensure agrees "peer preshared key mismatch"

/-- What the peers should have as allowed addresses. -/
def expectedIps (state : DesiredState) : Values :=
  collectValues ((state.peers.filter (·.enabled)).map fun p =>
    (p.publicKey.toList, (dotted p.vpnIp ++ "/32").toList))

/-- `verify_wireguard_state`; `output` is `HostCommandRunner::output`. -/
def verifyWireguardState (output : WgObservation → Except String (List Char))
    (state : DesiredState) : Except String Unit := do
  let publicKey ← output .publicKey
  ensure (trim publicKey == state.serverPublicKey.toList) "server public key mismatch"
  let port ← output .listenPort
  ensure (trim port == "51820".toList) "WireGuard listen port mismatch"
  let addresses ← output .addresses
  ensure ((Text.words addresses).any fun field => field == "10.0.0.1/22".toList)
    "host wg0 address mismatch"
  let allowed ← output .allowedIps
  let observed ← parseAllowedIps allowed
  let expected := expectedIps state
  ensure (observed.same expected) "active WireGuard peers differ from desired state"
  let keepalive ← output .persistentKeepalive
  let observedKeepalive ← parsePeerValues keepalive
  let preshared ← output .presharedKeys
  let observedPreshared ← parsePeerValues preshared
  ensure (observedKeepalive.length == expected.length &&
      observedPreshared.length == expected.length)
    "active WireGuard peer attributes differ from desired state"
  (state.peers.filter (·.enabled)).forM (verifyPeer observedKeepalive observedPreshared)

end Parser

section Live

/-- The text of an IPv6 address. -/
def Ipv6Text := { text : List Char // ':' ∈ text ∧ ∀ c ∈ text, isWhitespace c = false }

instance : DecidableEq Ipv6Text := inferInstanceAs (DecidableEq (Subtype _))

/-- An allowed address of a live peer. -/
inductive LiveIp where
  | v4 (address : BitVec 32) (length : Nat)
  | v6 (address : Ipv6Text) (length : Nat)
  deriving DecidableEq

structure LivePeer where
  publicKey : String
  presharedKey : Option String
  allowedIps : List LiveIp
  persistentKeepalive : Nat
  deriving DecidableEq

/-- An IPv4 address of the interface. -/
structure LiveAddress where
  address : BitVec 32
  length : Nat
  broadcast : Option (BitVec 32)
  deriving DecidableEq

/-- An interface as the kernel has it: every key is the text of 32 bytes and names one peer, an
interval has 16 bits. -/
structure LiveInterface where
  index : Nat
  publicKey : Option String
  listenPort : Nat
  addresses : List LiveAddress
  peers : List LivePeer
  validServer : ∀ key, publicKey = some key → validKey key = true
  validKeys : ∀ p ∈ peers, validKey p.publicKey = true
  validPsks : ∀ p ∈ peers, ∀ psk, p.presharedKey = some psk → validKey psk = true
  keepalives : ∀ p ∈ peers, p.persistentKeepalive < 65536
  distinct : (peers.map (·.publicKey)).Nodup

/-- A key, or "(none)". -/
def keyText (key : Option String) : List Char := (key.getD "(none)").toList

def LiveIp.text : LiveIp → List Char
  | v4 address length => (dotted address).toList ++ '/' :: (toString length).toList
  | v6 address length => address.1 ++ '/' :: (toString length).toList

namespace LivePeer

/-- The words of `wg show wg0 allowed-ips` after the key. -/
def allowedWords (p : LivePeer) : List (List Char) :=
  if p.allowedIps = [] then ["(none)".toList] else p.allowedIps.map LiveIp.text

def keepaliveWord (p : LivePeer) : List Char :=
  if p.persistentKeepalive = 0 then "off".toList else (toString p.persistentKeepalive).toList

def pskWord (p : LivePeer) : List Char := keyText p.presharedKey

end LivePeer

/-- A line of `wg show`: a key, a tab and words. -/
def showLine (key : String) (ws : List (List Char)) : List Char := key.toList ++ '\t' :: unwords ws

/-- The words of a line of `ip -4 -o address`. -/
def LiveAddress.words (index : Nat) (a : LiveAddress) : List (List Char) :=
  [(toString index).toList ++ [':'], "wg0".toList, "inet".toList,
    (dotted a.address).toList ++ '/' :: (toString a.length).toList] ++
    (a.broadcast.toList.flatMap fun b => ["brd".toList, (dotted b).toList]) ++
    ["scope".toList, "global".toList, "wg0\\".toList, "valid_lft".toList, "forever".toList,
      "preferred_lft".toList, "forever".toList]

/-- What the commands print. -/
def LiveInterface.output (live : LiveInterface) : WgObservation → List Char
  | .publicKey => keyText live.publicKey ++ ['\n']
  | .listenPort => (toString live.listenPort).toList ++ ['\n']
  | .addresses => unlines (live.addresses.map fun a => unwords (a.words live.index))
  | .allowedIps => unlines (live.peers.map fun p => showLine p.publicKey p.allowedWords)
  | .persistentKeepalive => unlines (live.peers.map fun p => showLine p.publicKey [p.keepaliveWord])
  | .presharedKeys => unlines (live.peers.map fun p => showLine p.publicKey [p.pskWord])

/-- The live peer that a desired peer stands for. -/
def DesiredPeer.live (p : DesiredPeer) : LivePeer where
  publicKey := p.publicKey
  presharedKey := p.presharedKey
  allowedIps := [.v4 p.vpnIp 32]
  persistentKeepalive := p.persistentKeepalive

/-- The interface is what the state asks for. -/
structure LiveInterface.Matches (live : LiveInterface) (state : DesiredState) : Prop where
  publicKey : live.publicKey = some state.serverPublicKey
  listenPort : live.listenPort = 51820
  address : ∃ a ∈ live.addresses, a.address = 0x0a000001 ∧ a.length = 22
  peers : live.peers.Perm ((state.peers.filter (·.enabled)).map DesiredPeer.live)

/-- The live peer that a section of a configuration stands for. -/
def ConfPeer.live (p : ConfPeer) : LivePeer where
  publicKey := p.publicKey
  presharedKey := p.presharedKey
  allowedIps := p.allowedIps.map fun ip => .v4 ip.address ip.length
  persistentKeepalive := p.persistentKeepalive

/-- The interface has what `activate_wg0` gives it: the values of the configuration, in any order,
and the address.  `publicKeyOf` is the public key of a private key. -/
structure LiveInterface.Configured (publicKeyOf : String → String) (conf : WgConf)
    (live : LiveInterface) : Prop where
  interface : ∃ i, conf.interfaces = [i] ∧ live.publicKey = some (publicKeyOf i.privateKey) ∧
    live.listenPort = i.listenPort
  address : ∃ a ∈ live.addresses, a.address = 0x0a000001 ∧ a.length = 22
  peers : live.peers.Perm (conf.peers.map ConfPeer.live)

end Live

section Maps

variable {β : Type} {key : β → List Char} {vals : β → List (List Char)}

/-- Parsing rows with distinct keys succeeds exactly if every row has one value. -/
theorem parseValues_rows (messages : ParseMessages) {bs : List β}
    (hkey : ∀ b ∈ bs, Word (key b))
    (hvals : ∀ b ∈ bs, vals b ≠ [] ∧ ∀ w ∈ vals b, Word w) (hnodup : (bs.map key).Nodup)
    {m : Values} :
    parseValues messages (unlines (bs.map fun b => key b ++ '\t' :: unwords (vals b))) = .ok m ↔
      (∀ b ∈ bs, ∃ v, vals b = [v]) ∧ m = bs.map fun b => (key b, (vals b).headD []) := by
  have hlines : lines (unlines (bs.map fun b => key b ++ '\t' :: unwords (vals b))) =
      bs.map fun b => key b ++ '\t' :: unwords (vals b) := by
    refine lines_unlines ?_
    intro line hline
    obtain ⟨b, hb, rfl⟩ := List.mem_map.mp hline
    have hk := (hkey b hb).no_break
    have hv := unwords_no_break (hvals b hb).2
    simp [hk.1, hk.2, hv.1, hv.2]
  have hgeneral : ∀ acc : Values, (∀ b ∈ bs, key b ∉ acc.map Prod.fst) →
      ((bs.map fun b => key b ++ '\t' :: unwords (vals b)).foldlM (parseLine messages) acc = .ok m ↔
        (∀ b ∈ bs, ∃ v, vals b = [v]) ∧
          m = acc ++ bs.map fun b => (key b, (vals b).headD [])) := by
    clear hlines
    induction bs with
    | nil =>
        intro acc _
        simp [pure, Except.pure, eq_comm]
    | cons b bs ih =>
        intro acc hacc
        rw [List.map_cons, List.nodup_cons] at hnodup
        obtain ⟨hne, hwords⟩ := hvals b List.mem_cons_self
        have hline : Text.words (key b ++ '\t' :: unwords (vals b)) = key b :: vals b := by
          rw [words_cons (hkey b List.mem_cons_self) (by decide), words_unwords hwords]
        have hnew : insertNew acc (key b) ((vals b).headD []) =
            some (acc ++ [(key b, (vals b).headD [])]) := by
          unfold insertNew
          rw [if_neg]
          intro hany
          obtain ⟨e, he, heq⟩ := List.any_eq_true.mp hany
          exact hacc b List.mem_cons_self (List.mem_map.mpr ⟨e, he, by simpa using heq⟩)
        have hrest : ∀ b' ∈ bs, key b' ∉ (acc ++ [(key b, (vals b).headD [])]).map Prod.fst := by
          intro b' hb' hmem
          rw [List.map_append, List.mem_append] at hmem
          rcases hmem with hmem | hmem
          · exact hacc b' (List.mem_cons_of_mem _ hb') hmem
          · rw [List.map_singleton, List.mem_singleton] at hmem
            exact hnodup.1 (List.mem_map.mpr ⟨b', hb', hmem⟩)
        have htail := ih (fun b' hb' => hkey b' (List.mem_cons_of_mem _ hb'))
          (fun b' hb' => hvals b' (List.mem_cons_of_mem _ hb')) hnodup.2 _ hrest
        rw [List.map_cons, List.foldlM_cons, List.forall_mem_cons, List.map_cons]
        cases hcase : vals b with
        | nil =>
            exact absurd hcase hne
        | cons v vs =>
            rw [hcase] at hline hnew htail
            cases vs with
            | nil =>
                have hparse : parseLine messages acc (key b ++ '\t' :: unwords (vals b)) =
                    .ok (acc ++ [(key b, v)]) := by
                  unfold parseLine
                  rw [hcase, hline]
                  simp only [List.headD_cons] at hnew
                  simp only [hnew]
                rw [hcase] at hparse
                rw [hparse]
                simp only [List.headD_cons, List.append_assoc, List.singleton_append] at htail
                simp only [List.headD_cons]
                exact htail.trans ⟨fun h => ⟨⟨⟨v, rfl⟩, h.1⟩, h.2⟩, fun h => ⟨h.1.2, h.2⟩⟩
            | cons v' vs =>
                have hparse : parseLine messages acc (key b ++ '\t' :: unwords (vals b)) =
                    .error messages.moreValues := by
                  unfold parseLine
                  rw [hcase, hline]
                rw [hcase] at hparse
                rw [hparse]
                constructor
                · intro h
                  cases h
                · rintro ⟨⟨⟨w, hw⟩, _⟩, _⟩
                  cases hw
  unfold parseValues
  rw [hlines]
  exact hgeneral [] (by simp)

/-- Entries with distinct keys are collected as they are. -/
theorem collectValues_eq {entries : List (List Char × List Char)}
    (h : (entries.map Prod.fst).Nodup) : collectValues entries = entries := by
  have hgeneral : ∀ acc : Values, (∀ e ∈ entries, e.1 ∉ acc.map Prod.fst) →
      entries.foldl (fun values e => (values.filter fun e' => e'.1 != e.1) ++ [e]) acc =
        acc ++ entries := by
    induction entries with
    | nil =>
        intro acc _
        simp
    | cons e entries ih =>
        intro acc hacc
        rw [List.map_cons, List.nodup_cons] at h
        have hfilter : (acc.filter fun e' => e'.1 != e.1) = acc := by
          rw [List.filter_eq_self]
          intro e' he'
          have hne : e'.1 ≠ e.1 := by
            intro heq
            exact hacc e List.mem_cons_self (List.mem_map.mpr ⟨e', he', heq⟩)
          simpa using hne
        rw [List.foldl_cons, hfilter, ih h.2]
        · simp
        · intro e' he' hmem
          rw [List.map_append, List.mem_append] at hmem
          rcases hmem with hmem | hmem
          · exact hacc e' (List.mem_cons_of_mem _ he') hmem
          · rw [List.map_singleton, List.mem_singleton] at hmem
            exact h.1 (List.mem_map.mpr ⟨e', he', hmem⟩)
  exact hgeneral [] (by simp)

theorem same_iff_perm {a b : Values} (ha : (a.map Prod.fst).Nodup) : a.same b = true ↔ a.Perm b := by
  have hnodup : a.Nodup := List.Nodup.of_map Prod.fst ha
  simp only [Values.same, Bool.and_eq_true, beq_iff_eq, List.all_eq_true, List.contains_iff_mem]
  constructor
  · rintro ⟨hlength, hsub⟩
    exact (hnodup.subperm hsub).perm_of_length_le hlength.ge
  · intro hperm
    exact ⟨hperm.length_eq, fun e he => hperm.mem_iff.mp he⟩

/-- The value of a key among rows with distinct keys. -/
theorem get_rows (value : β → List Char) {bs : List β} (hnodup : (bs.map key).Nodup) {b : β}
    (hb : b ∈ bs) : Values.get (bs.map fun b => (key b, value b)) (key b) = some (value b) := by
  unfold Values.get
  induction bs with
  | nil =>
      cases hb
  | cons b' bs ih =>
      rw [List.map_cons, List.nodup_cons] at hnodup
      rw [List.map_cons, List.find?_cons]
      by_cases heq : key b' = key b
      · have hself : b' = b := by
          cases hb with
          | head =>
              rfl
          | tail _ hb =>
              rw [heq] at hnodup
              exact absurd (List.mem_map.mpr ⟨b, hb, rfl⟩) hnodup.1
        subst hself
        simp
      · have hb : b ∈ bs := by
          cases hb with
          | head =>
              exact absurd rfl heq
          | tail _ hb =>
              exact hb
        have hfalse : (key b' == key b) = false := by simpa using heq
        simp only [hfalse]
        exact ih hnodup.2 hb

end Maps

section LiveTexts

theorem word_of_chars {cs : List Char} (hne : cs ≠ []) (h : ∀ c ∈ cs, isWordChar c = true) :
    Word cs :=
  ⟨hne, fun c hc => (Ini.isPlain_iff.mp (isPlain_of_isWordChar (h c hc))).1⟩

theorem validKey_word {key : String} (h : validKey key = true) : Word key.toList := by
  obtain ⟨hne, hplain⟩ := validKey_plain h
  exact ⟨hne, fun c hc => (Ini.isPlain_iff.mp (hplain c hc)).1⟩

theorem word_toString (n : Nat) : Word (toString n).toList :=
  word_of_chars (toString_ne_nil n) (isWordChar_toString n)

/-- The sentinels are words. -/
theorem sentinel_words : Word "(none)".toList ∧ Word "off".toList :=
  ⟨word_of_all (by decide), word_of_all (by decide)⟩

theorem ne_none_of_chars {cs : List Char} (h : ∀ c ∈ cs, isWordChar c = true) :
    cs ≠ "(none)".toList := by
  rintro rfl
  have hmem : '(' ∈ "(none)".toList := by decide
  exact absurd (h '(' hmem) (by decide)

theorem keyText_word {key : Option String} (h : ∀ k, key = some k → validKey k = true) :
    Word (keyText key) := by
  cases key with
  | none =>
      exact sentinel_words.1
  | some k =>
      exact validKey_word (h k rfl)

/-- A key is told apart from the other keys and from a missing key. -/
theorem keyText_eq {key : Option String} {k : String} (hk : validKey k = true) :
    keyText key = k.toList ↔ key = some k := by
  cases key with
  | none =>
      have hne := ne_none_of_chars (validKey_chars hk).2
      constructor
      · intro h
        exact absurd h.symm hne
      · intro h
        cases h
  | some k' =>
      simp [keyText, String.toList_inj]

theorem keyText_eq_none {key : Option String} (h : ∀ k, key = some k → validKey k = true) :
    keyText key = "(none)".toList ↔ key = none := by
  cases key with
  | none =>
      exact ⟨fun _ => rfl, fun _ => rfl⟩
  | some k =>
      have hne : keyText (some k) ≠ "(none)".toList := ne_none_of_chars (validKey_chars (h k rfl)).2
      constructor
      · intro heq
        exact absurd heq hne
      · intro heq
        cases heq

theorem LiveIp.text_word (ip : LiveIp) : Word ip.text := by
  have hslash : isWhitespace '/' = false := by decide
  cases ip with
  | v4 address length =>
      refine word_of_chars (by simp [text]) ?_
      intro c hc
      simp only [text, List.mem_append, List.mem_cons] at hc
      rcases hc with hc | rfl | hc
      · rcases dotted_chars address c hc with h | rfl
        · exact isWordChar_of_isDigit h
        · decide
      · decide
      · exact isWordChar_toString length c hc
  | v6 address length =>
      refine ⟨by simp [text], ?_⟩
      intro c hc
      simp only [text, List.mem_append, List.mem_cons] at hc
      rcases hc with hc | rfl | hc
      · exact address.2.2 c hc
      · exact hslash
      · exact (word_toString length).2 c hc

theorem LiveIp.text_eq_host {ip : LiveIp} {address : BitVec 32} :
    ip.text = (dotted address ++ "/32").toList ↔ ip = .v4 address 32 := by
  rw [allowedIp_toList]
  cases ip with
  | v4 a n =>
      constructor
      · intro h
        have hread := congrArg readAllowedIp h
        rw [text, readAllowedIp_text, readAllowedIp_text] at hread
        cases hread
        rfl
      · intro h
        cases h
        rfl
  | v6 a n =>
      constructor
      · intro h
        -- an IPv6 address has a colon
        have hcolon : ':' ∈ text (.v6 a n) := List.mem_append_left _ a.2.1
        rw [h, List.mem_append, List.mem_cons] at hcolon
        rcases hcolon with hc | hc | hc
        · exact absurd rfl (dotted_ne hc (by decide) (by decide))
        · cases hc
        · exact absurd (Json.all_isDigit_toString _ _ hc) (by decide)
      · intro h
        cases h

namespace LivePeer

variable {p : LivePeer}

theorem allowedWords_words (p : LivePeer) :
    p.allowedWords ≠ [] ∧ ∀ w ∈ p.allowedWords, Word w := by
  unfold allowedWords
  split
  · refine ⟨List.cons_ne_nil _ _, ?_⟩
    intro w hw
    rw [List.mem_singleton.mp hw]
    exact sentinel_words.1
  · rename_i h
    refine ⟨by simpa using h, ?_⟩
    intro w hw
    obtain ⟨ip, _, rfl⟩ := List.mem_map.mp hw
    exact ip.text_word

/-- Only one allowed address, the host address, prints as this word. -/
theorem allowedWords_eq_host {address : BitVec 32} :
    p.allowedWords = [(dotted address ++ "/32").toList] ↔ p.allowedIps = [.v4 address 32] := by
  unfold allowedWords
  split
  · rename_i h
    rw [h]
    constructor
    · intro heq
      exact absurd (List.cons.inj heq).1.symm (ne_none_of_chars (allowedIp_chars address))
    · intro heq
      cases heq
  · cases hips : p.allowedIps with
    | nil =>
        simp
    | cons ip ips =>
        rw [List.map_cons, List.cons.injEq, List.cons.injEq, List.map_eq_nil_iff,
          LiveIp.text_eq_host]

theorem keepaliveWord_word (p : LivePeer) : Word p.keepaliveWord := by
  unfold keepaliveWord
  split
  · exact sentinel_words.2
  · exact word_toString _

/-- The interval is read back. -/
theorem keepaliveWord_read (h : p.persistentKeepalive < 65536) :
    parsedInterval p.keepaliveWord = .ok p.persistentKeepalive := by
  unfold parsedInterval keepaliveWord
  split
  · rename_i hzero
    rw [if_pos rfl, hzero]
  · have hdigits := Json.all_isDigit_toString p.persistentKeepalive
    have hne : (toString p.persistentKeepalive).toList ≠ "off".toList := by
      intro heq
      have hmem : 'o' ∈ "off".toList := by decide
      rw [heq] at hdigits
      exact absurd (hdigits 'o' hmem) (by decide)
    rw [if_neg hne]
    exact parseUnsigned_toString h

end LivePeer

/-- A line with one word. -/
theorem trim_line {w : List Char} (hw : Word w) : trim (w ++ ['\n']) = w := by
  refine trim_padded (l := []) (fun c hc => by cases hc) ?_ ?_ ?_
  · intro c hc
    rw [List.mem_singleton.mp hc]
    decide
  · intro c hc
    exact hw.2 c (List.mem_of_mem_head? hc)
  · intro c hc
    exact hw.2 c (List.mem_of_mem_getLast? hc)

theorem toString_toList_inj {m n : Nat} : (toString m).toList = (toString n).toList ↔ m = n := by
  constructor
  · intro h
    have hread := readNumber_toString m
    rw [h, readNumber_toString n, Option.some.injEq] at hread
    exact hread.symm
  · intro h
    rw [h]

theorem trim_port (n : Nat) : trim ((toString n).toList ++ ['\n']) = "51820".toList ↔ n = 51820 := by
  have hport : "51820" = toString 51820 := by decide
  rw [trim_line (word_toString n), hport]
  exact toString_toList_inj

/-- The words of lines of words. -/
theorem words_unlines {β : Type} {ws : β → List (List Char)} (bs : List β)
    (h : ∀ b ∈ bs, ∀ w ∈ ws b, Word w) :
    Text.words (unlines (bs.map fun b => unwords (ws b))) = bs.flatMap ws := by
  induction bs with
  | nil =>
      rfl
  | cons b bs ih =>
      have hcons : unlines ((b :: bs).map fun b => unwords (ws b)) =
          unwords (ws b) ++ '\n' :: unlines (bs.map fun b => unwords (ws b)) := by
        simp [unlines]
      rw [hcons, words_append_newline, words_unwords (h b List.mem_cons_self),
        ih fun b' hb' => h b' (List.mem_cons_of_mem _ hb'), List.flatMap_cons]

/-- The words of `ip address` that do not depend on the interface. -/
theorem fixed_words : ∀ w ∈ ["wg0", "inet", "brd", "scope", "global", "wg0\\", "valid_lft", "forever",
    "preferred_lft"], Word w.toList ∧ '/' ∉ w.toList := by
  intro w hw
  have hall : ["wg0", "inet", "brd", "scope", "global", "wg0\\", "valid_lft", "forever",
      "preferred_lft"].all (fun w => (!w.toList.isEmpty && w.toList.all fun c => !isWhitespace c) &&
        !w.toList.contains '/') = true := by decide
  have hone := List.all_eq_true.mp hall w hw
  rw [Bool.and_eq_true] at hone
  exact ⟨word_of_all hone.1, by simpa using hone.2⟩

theorem dotted_word (ip : BitVec 32) : Word (dotted ip).toList ∧ '/' ∉ (dotted ip).toList := by
  have hne : (dotted ip).toList ≠ [] := by
    intro hnil
    have hread := Wire.parseDotted_dotted ip
    unfold Wire.parseDotted at hread
    rw [hnil] at hread
    cases hread
  refine ⟨word_of_chars hne ?_, fun hmem => dotted_ne hmem rfl (by decide) rfl⟩
  intro c hc
  rcases dotted_chars ip c hc with h | rfl
  · exact isWordChar_of_isDigit h
  · decide

theorem index_word (index : Nat) :
    Word ((toString index).toList ++ [':']) ∧ '/' ∉ (toString index).toList ++ [':'] := by
  refine ⟨⟨by simp, ?_⟩, ?_⟩
  · intro c hc
    rcases List.mem_append.mp hc with hc | hc
    · exact (word_toString index).2 c hc
    · rw [List.mem_singleton.mp hc]
      decide
  · intro hmem
    rcases List.mem_append.mp hmem with hc | hc
    · exact absurd (Json.all_isDigit_toString index _ hc) (by decide)
    · exact absurd hc (by decide)

namespace LiveAddress

/-- The word of the address with the length of its network. -/
def text (a : LiveAddress) : List Char := (dotted a.address).toList ++ '/' :: (toString a.length).toList

theorem text_word (a : LiveAddress) : Word a.text := LiveIp.text_word (.v4 a.address a.length)

theorem text_eq {a : LiveAddress} :
    a.text = "10.0.0.1/22".toList ↔ a.address = 0x0a000001 ∧ a.length = 22 := by
  have hliteral : "10.0.0.1/22".toList = text ⟨0x0a000001, 22, none⟩ := by decide
  rw [hliteral]
  constructor
  · intro h
    have hread := congrArg readAllowedIp h
    rw [text, text, readAllowedIp_text, readAllowedIp_text, Option.some.injEq,
      AllowedIp.mk.injEq] at hread
    exact hread
  · rintro ⟨haddress, hlength⟩
    rw [text, haddress, hlength, text]

/-- Every other word of the line has no slash. -/
theorem mem_words {index : Nat} {a : LiveAddress} {w : List Char} (h : w ∈ a.words index) :
    w = a.text ∨ (Word w ∧ '/' ∉ w) := by
  simp only [-String.reduceToList, words, List.mem_append, List.mem_cons, List.mem_flatMap,
    List.not_mem_nil, or_false] at h
  rcases h with ((h | h | h | h) | ⟨b, _, h | h⟩) | h | h | h | h | h | h | h <;> rw [h]
  · exact .inr (index_word index)
  · exact .inr (fixed_words "wg0" (by simp))
  · exact .inr (fixed_words "inet" (by simp))
  · exact .inl rfl
  · exact .inr (fixed_words "brd" (by simp))
  · exact .inr (dotted_word b)
  · exact .inr (fixed_words "scope" (by simp))
  · exact .inr (fixed_words "global" (by simp))
  · exact .inr (fixed_words "wg0\\" (by simp))
  · exact .inr (fixed_words "valid_lft" (by simp))
  · exact .inr (fixed_words "forever" (by simp))
  · exact .inr (fixed_words "preferred_lft" (by simp))
  · exact .inr (fixed_words "forever" (by simp))

theorem text_mem_words (index : Nat) (a : LiveAddress) : a.text ∈ a.words index := by
  simp only [words, List.mem_append, List.mem_cons]
  exact .inl (.inl (.inr (.inr (.inr (.inl rfl)))))

end LiveAddress

/-- The address is among the words exactly if the interface has it. -/
theorem address_observed (live : LiveInterface) :
    (Text.words (live.output .addresses)).any (fun field => field == "10.0.0.1/22".toList) = true ↔
      ∃ a ∈ live.addresses, a.address = 0x0a000001 ∧ a.length = 22 := by
  have hwords : ∀ a ∈ live.addresses, ∀ w ∈ a.words live.index, Word w := by
    intro a _ w hw
    rcases LiveAddress.mem_words hw with htext | hword
    · rw [htext]
      exact a.text_word
    · exact hword.1
  simp only [LiveInterface.output, words_unlines _ hwords, List.any_eq_true, beq_iff_eq,
    List.mem_flatMap]
  constructor
  · rintro ⟨w, ⟨a, ha, hw⟩, hfield⟩
    have hslash : '/' ∈ w := by
      rw [hfield]
      decide
    rcases LiveAddress.mem_words hw with htext | hother
    · exact ⟨a, ha, LiveAddress.text_eq.mp (htext.symm.trans hfield)⟩
    · exact absurd hslash hother.2
  · rintro ⟨a, ha, htext⟩
    exact ⟨a.text, ⟨a, ha, a.text_mem_words live.index⟩, LiveAddress.text_eq.mpr htext⟩

end LiveTexts

section Exactness

variable {live : LiveInterface}

theorem live_keys_nodup (live : LiveInterface) :
    (live.peers.map fun p => p.publicKey.toList).Nodup := by
  have h := live.distinct.map (f := String.toList) fun _ _ heq => String.toList_inj.mp heq
  rwa [List.map_map] at h

/-- The parsers on the lines of the peers. -/
theorem parseValues_live (messages : ParseMessages) (live : LiveInterface)
    (vals : LivePeer → List (List Char))
    (hvals : ∀ p ∈ live.peers, vals p ≠ [] ∧ ∀ w ∈ vals p, Word w) {m : Values} :
    parseValues messages (unlines (live.peers.map fun p => showLine p.publicKey (vals p))) = .ok m ↔
      (∀ p ∈ live.peers, ∃ v, vals p = [v]) ∧
        m = live.peers.map fun p => (p.publicKey.toList, (vals p).headD []) :=
  parseValues_rows messages (fun p hp => validKey_word (live.validKeys p hp)) hvals
    (live_keys_nodup live)

/-- One value in a line is always read. -/
theorem parsePeerValues_live (live : LiveInterface) {word : LivePeer → List Char}
    (hword : ∀ p ∈ live.peers, Word (word p)) {m : Values} :
    parsePeerValues (unlines (live.peers.map fun p => showLine p.publicKey [word p])) = .ok m ↔
      m = live.peers.map fun p => (p.publicKey.toList, word p) := by
  unfold parsePeerValues
  rw [parseValues_live _ live fun p => [word p]]
  · simp
  · intro p hp
    refine ⟨List.cons_ne_nil _ _, ?_⟩
    intro w hw
    rw [List.mem_singleton.mp hw]
    exact hword p hp

theorem psk_words (live : LiveInterface) : ∀ p ∈ live.peers, Word p.pskWord :=
  fun p hp => keyText_word (live.validPsks p hp)

/-- The checks of a peer compare the live peer with its key. -/
theorem verifyPeer_live {p : DesiredPeer} {q : LivePeer} (hq : q ∈ live.peers)
    (hkey : q.publicKey = p.publicKey)
    (hpsk : ∀ psk, p.presharedKey = some psk → validKey psk = true) :
    verifyPeer (live.peers.map fun q => (q.publicKey.toList, q.keepaliveWord))
        (live.peers.map fun q => (q.publicKey.toList, q.pskWord)) p = .ok () ↔
      q.persistentKeepalive = p.persistentKeepalive ∧ q.presharedKey = p.presharedKey := by
  have hkeepalive := get_rows LivePeer.keepaliveWord (live_keys_nodup live) hq
  have hactual := get_rows LivePeer.pskWord (live_keys_nodup live) hq
  have hread := LivePeer.keepaliveWord_read (live.keepalives q hq)
  have hagrees : (match p.presharedKey with
      | some psk => q.pskWord == psk.toList
      | none => q.pskWord == "(none)".toList) = true ↔ q.presharedKey = p.presharedKey := by
    cases hp : p.presharedKey with
    | none =>
        simp only [beq_iff_eq]
        exact keyText_eq_none (live.validPsks q hq)
    | some psk =>
        simp only [beq_iff_eq]
        exact keyText_eq (hpsk psk hp)
  rw [hkey] at hkeepalive hactual
  unfold verifyPeer
  rw [hkeepalive, hactual]
  simp only [expect, hread, bind_eq_ok, ensure_eq_ok, Except.ok.injEq, beq_iff_eq, exists_eq_left',
    exists_const, hagrees]

variable {state : DesiredState}

theorem enabled_keys_nodup (h : state.ValidContent) :
    ((state.peers.filter (·.enabled)).map (·.publicKey)).Nodup :=
  h.keys.sublist (List.filter_sublist.map _)

theorem expectedIps_eq (h : state.ValidContent) :
    expectedIps state = (state.peers.filter (·.enabled)).map fun p =>
      (p.publicKey.toList, (dotted p.vpnIp ++ "/32").toList) := by
  refine collectValues_eq ?_
  have hkeys := (enabled_keys_nodup h).map (f := String.toList) fun _ _ heq =>
    String.toList_inj.mp heq
  rw [List.map_map] at hkeys ⊢
  exact hkeys

/-- What the steps of the verification ask for. -/
theorem verifyWireguardState_steps (h : state.ValidContent) (live : LiveInterface) :
    verifyWireguardState (fun o => .ok (live.output o)) state = .ok () ↔
      live.publicKey = some state.serverPublicKey ∧ live.listenPort = 51820 ∧
      (∃ a ∈ live.addresses, a.address = 0x0a000001 ∧ a.length = 22) ∧
      (∀ q ∈ live.peers, ∃ v, q.allowedWords = [v]) ∧
      (live.peers.map fun q => (q.publicKey.toList, q.allowedWords.headD [])).Perm
        (expectedIps state) ∧
      ∀ p ∈ state.peers.filter (·.enabled),
        verifyPeer (live.peers.map fun q => (q.publicKey.toList, q.keepaliveWord))
          (live.peers.map fun q => (q.publicKey.toList, q.pskWord)) p = .ok () := by
  have hserver : trim (live.output .publicKey) = state.serverPublicKey.toList ↔
      live.publicKey = some state.serverPublicKey := by
    rw [LiveInterface.output, trim_line (keyText_word live.validServer)]
    exact keyText_eq h.serverPublicKey
  have hport : trim (live.output .listenPort) = "51820".toList ↔ live.listenPort = 51820 :=
    trim_port live.listenPort
  have hallowed : ∀ m, parseAllowedIps (live.output .allowedIps) = .ok m ↔
      (∀ q ∈ live.peers, ∃ v, q.allowedWords = [v]) ∧
        m = live.peers.map fun q => (q.publicKey.toList, q.allowedWords.headD []) :=
    fun _ => parseValues_live _ live LivePeer.allowedWords fun q _ => q.allowedWords_words
  have hkeepalive : ∀ m, parsePeerValues (live.output .persistentKeepalive) = .ok m ↔
      m = live.peers.map fun q => (q.publicKey.toList, q.keepaliveWord) :=
    fun _ => parsePeerValues_live live fun q _ => q.keepaliveWord_word
  have hpsk : ∀ m, parsePeerValues (live.output .presharedKeys) = .ok m ↔
      m = live.peers.map fun q => (q.publicKey.toList, q.pskWord) :=
    fun _ => parsePeerValues_live live (psk_words live)
  have hnodup : ((live.peers.map fun q => (q.publicKey.toList, q.allowedWords.headD [])).map
      Prod.fst).Nodup := by
    rw [List.map_map]
    exact live_keys_nodup live
  unfold verifyWireguardState
  simp only [bind_eq_ok, ensure_eq_ok, beq_iff_eq, Except.ok.injEq, exists_eq_left', exists_const,
    hserver, hport, address_observed, hallowed, hkeepalive, hpsk, exists_eq_left, forM_eq_ok,
    Bool.and_eq_true, List.length_map, and_assoc]
  constructor
  · rintro ⟨hkey, hlisten, haddress, _, hsingle, rfl, hsame, _, _, hpeers⟩
    exact ⟨hkey, hlisten, haddress, hsingle, (same_iff_perm hnodup).mp hsame, hpeers⟩
  · rintro ⟨hkey, hlisten, haddress, hsingle, hperm, hpeers⟩
    have hlength : live.peers.length = List.length (expectedIps state) := by
      simpa using hperm.length_eq
    exact ⟨hkey, hlisten, haddress, _, hsingle, rfl, (same_iff_perm hnodup).mpr hperm, hlength,
      hlength, hpeers⟩

/-- The maps and the checks of the peers together say that the peers are the enabled ones. -/
theorem peers_verified (h : state.ValidContent) (live : LiveInterface) :
    ((∀ q ∈ live.peers, ∃ v, q.allowedWords = [v]) ∧
      (live.peers.map fun q => (q.publicKey.toList, q.allowedWords.headD [])).Perm
        (expectedIps state) ∧
      ∀ p ∈ state.peers.filter (·.enabled),
        verifyPeer (live.peers.map fun q => (q.publicKey.toList, q.keepaliveWord))
          (live.peers.map fun q => (q.publicKey.toList, q.pskWord)) p = .ok ()) ↔
      live.peers.Perm ((state.peers.filter (·.enabled)).map DesiredPeer.live) := by
  have hpsk : ∀ p ∈ state.peers.filter (·.enabled), ∀ psk, p.presharedKey = some psk →
      validKey psk = true := fun p hp => (h.valid p (List.mem_filter.mp hp).1).presharedKey
  rw [expectedIps_eq h]
  constructor
  · rintro ⟨hsingle, hperm, hchecked⟩
    have hsub : ∀ q ∈ live.peers, q ∈ (state.peers.filter (·.enabled)).map DesiredPeer.live := by
      intro q hq
      obtain ⟨v, hv⟩ := hsingle q hq
      obtain ⟨p, hp, hpair⟩ := List.mem_map.mp (hperm.mem_iff.mp (List.mem_map.mpr ⟨q, hq, rfl⟩))
      rw [Prod.mk.injEq, String.toList_inj, hv, List.headD_cons] at hpair
      obtain ⟨hkey, hip⟩ := hpair
      have hips := LivePeer.allowedWords_eq_host.mp (hip ▸ hv)
      obtain ⟨hkeepalive, hpreshared⟩ :=
        (verifyPeer_live hq hkey.symm (hpsk p hp)).mp (hchecked p hp)
      refine List.mem_map.mpr ⟨p, hp, ?_⟩
      cases q
      simp only at hkey hips hkeepalive hpreshared
      simp only [DesiredPeer.live, hkey, hips, hkeepalive, hpreshared]
    have hlength := hperm.length_eq
    rw [List.length_map, List.length_map] at hlength
    refine ((List.Nodup.of_map _ live.distinct).subperm hsub).perm_of_length_le ?_
    rw [List.length_map, hlength]
  · intro hperm
    have hlive : ∀ q ∈ live.peers, ∃ p ∈ state.peers.filter (·.enabled), p.live = q :=
      fun q hq => List.mem_map.mp (hperm.mem_iff.mp hq)
    have hhost : ∀ p : DesiredPeer, p.live.allowedWords = [(dotted p.vpnIp ++ "/32").toList] :=
      fun p => LivePeer.allowedWords_eq_host.mpr rfl
    refine ⟨?_, ?_, ?_⟩
    · intro q hq
      obtain ⟨p, _, rfl⟩ := hlive q hq
      exact ⟨_, hhost p⟩
    · refine (hperm.map _).trans (List.Perm.of_eq ?_)
      rw [List.map_map]
      refine List.map_congr_left ?_
      intro p _
      simp only [Function.comp_apply, hhost, List.headD_cons]
      rfl
    · intro p hp
      have hq : p.live ∈ live.peers := hperm.mem_iff.mpr (List.mem_map.mpr ⟨p, hp, rfl⟩)
      exact (verifyPeer_live hq rfl (hpsk p hp)).mpr ⟨rfl, rfl⟩

theorem verifyWireguardState_eq_ok (h : state.ValidContent) (live : LiveInterface) :
    verifyWireguardState (fun o => .ok (live.output o)) state = .ok () ↔ live.Matches state := by
  rw [verifyWireguardState_steps h live]
  constructor
  · rintro ⟨hkey, hport, haddress, hpeers⟩
    exact ⟨hkey, hport, haddress, (peers_verified h live).mp hpeers⟩
  · intro hmatches
    exact ⟨hmatches.publicKey, hmatches.listenPort, hmatches.address,
      (peers_verified h live).mpr hmatches.peers⟩

variable (digest : DesiredState → String) (publicKeyOf : String → String)

theorem matches_of_configured {privateKey : String} {config : SensitiveWgConfig} {conf : WgConf}
    (hrender : render digest state privateKey = .ok config)
    (hconf : parseConf config.text = some conf)
    (hkey : publicKeyOf privateKey = state.serverPublicKey)
    (h : live.Configured publicKeyOf conf) : live.Matches state := by
  obtain ⟨_, hcontent, hprivate, rfl⟩ := (render_eq_ok digest).mp hrender
  rw [parseConf_configText hcontent hprivate, Option.some.injEq] at hconf
  subst hconf
  obtain ⟨i, hi, hpublic, hport⟩ := h.interface
  rw [List.cons.injEq] at hi
  obtain ⟨rfl, _⟩ := hi
  refine ⟨hpublic.trans (congrArg some hkey), hport, h.address, ?_⟩
  have hpeers := h.peers
  rw [List.map_map] at hpeers
  exact hpeers.trans ((sortedPeers_perm state).map DesiredPeer.live)

/-- An interface of `threePeers`, with one more address. -/
def threePeersLive : LiveInterface where
  index := 9
  publicKey := some (keyOf 'B')
  listenPort := 51820
  addresses := [⟨0x0a000001, 22, none⟩, ⟨0xc0a80001, 24, some 0xc0a800ff⟩]
  peers := [⟨keyOf 'C', none, [.v4 0x0a000002 32], 0⟩,
    ⟨keyOf 'D', some (keyOf 'E'), [.v4 0x0a0003fe 32], 30⟩]
  validServer := by
    rintro key ⟨⟩
    exact validKey_keyOf rfl
  validKeys := by
    intro p hp
    simp only [List.mem_cons, List.not_mem_nil, or_false] at hp
    rcases hp with rfl | rfl
    · exact validKey_keyOf rfl
    · exact validKey_keyOf rfl
  validPsks := by
    intro p hp
    simp only [List.mem_cons, List.not_mem_nil, or_false] at hp
    rcases hp with rfl | rfl
    · rintro psk ⟨⟩
    · rintro psk ⟨⟩
      exact validKey_keyOf rfl
  keepalives := by
    intro p hp
    simp only [List.mem_cons, List.not_mem_nil, or_false] at hp
    rcases hp with rfl | rfl
    · exact Nat.lt_of_sub_eq_succ rfl
    · exact Nat.lt_of_sub_eq_succ rfl
  distinct := by
    simp only [List.map_cons, List.map_nil, List.nodup_cons, List.mem_singleton,
      List.not_mem_nil, not_false_eq_true, List.nodup_nil, and_true]
    exact fun heq => absurd (keyOf_injective heq) (by decide)

end Exactness

end HostAgent
end ZeroVpn
