import Mathlib.Data.String.Basic
import ZeroVpn.HostAgent.Cutover
import ZeroVpn.HostAgent.Wire
import ZeroVpn.Library.Ini

/-!
# The rendered WireGuard configuration

What the text of `render` in `crates/zerovpn-host-agent/src/wireguard_config.rs`
means as a `wg` configuration.  `parseConf` reads a text with sections and
`key = value` lines into interfaces and peers.

Keys that `valid_key` accepts are words of base64 characters, so that each of them
stays inside its own line.
-/

namespace ZeroVpn

open Library Library.Text Library.Ini

namespace HostAgent

structure ConfInterface where
  privateKey : String
  listenPort : Nat
  deriving DecidableEq, Repr

/-- An address with the length of its network. -/
structure AllowedIp where
  address : BitVec 32
  length : Nat
  deriving DecidableEq, Repr

structure ConfPeer where
  publicKey : String
  presharedKey : Option String
  allowedIps : List AllowedIp
  persistentKeepalive : Nat
  deriving DecidableEq, Repr

/-- The sections of a configuration. -/
structure WgConf where
  interfaces : List ConfInterface
  peers : List ConfPeer
  deriving DecidableEq, Repr

section Parser

def readNumber (cs : List Char) : Option Nat :=
  match Json.readNat cs with
  | some (n, []) => some n
  | _ => none

def readAllowedIp (cs : List Char) : Option AllowedIp := do
  let address ← Wire.readDotted (cs.takeWhile fun c => c != '/')
  let length ← readNumber (cs.dropWhile fun c => c != '/').tail
  some { address, length }

/-- The values of a key. -/
def valuesOf (key : String) (entries : List (List Char × List Char)) : List (List Char) :=
  (entries.filter fun entry => entry.1 == key.toList).map Prod.snd

/-- A key that occurs once. -/
def single (key : String) (entries : List (List Char × List Char)) : Option (List Char) :=
  match valuesOf key entries with
  | [value] => some value
  | _ => none

/-- A key that occurs at most once. -/
def atMostOne (key : String) (entries : List (List Char × List Char)) :
    Option (Option (List Char)) :=
  match valuesOf key entries with
  | [] => some none
  | [value] => some (some value)
  | _ => none

/-- No other keys than these. -/
def onlyKeys (keys : List String) (entries : List (List Char × List Char)) : Bool :=
  entries.all fun entry => keys.any fun key => key.toList == entry.1

def readInterface (entries : List (List Char × List Char)) : Option ConfInterface := do
  guard (onlyKeys ["PrivateKey", "ListenPort"] entries)
  let privateKey ← single "PrivateKey" entries
  let listenPort ← (single "ListenPort" entries).bind readNumber
  some { privateKey := String.ofList privateKey, listenPort }

def readPeer (entries : List (List Char × List Char)) : Option ConfPeer := do
  guard (onlyKeys ["PublicKey", "PresharedKey", "AllowedIPs", "PersistentKeepalive"] entries)
  let publicKey ← single "PublicKey" entries
  let presharedKey ← atMostOne "PresharedKey" entries
  let allowedIps ← (single "AllowedIPs" entries).bind fun value =>
    (value.splitOn ',').mapM fun ip => readAllowedIp (trim ip)
  let persistentKeepalive ← (single "PersistentKeepalive" entries).bind readNumber
  some
    { publicKey := String.ofList publicKey
      presharedKey := presharedKey.map String.ofList
      allowedIps
      persistentKeepalive }

/-- The sections by their kind. -/
def readSections : List Ini.Section → Option WgConf
  | [] => some { interfaces := [], peers := [] }
  | s :: sections => do
      let conf ← readSections sections
      if s.name = "Interface".toList then
        let interface ← readInterface s.entries
        some { conf with interfaces := interface :: conf.interfaces }
      else if s.name = "Peer".toList then
        let peer ← readPeer s.entries
        some { conf with peers := peer :: conf.peers }
      else none

/-- The meaning of a configuration. -/
def parseConf (s : String) : Option WgConf := (Ini.parse s.toList).bind readSections

end Parser

section Sections

/-- What a peer should be in the configuration. -/
def DesiredPeer.conf (p : DesiredPeer) : ConfPeer where
  publicKey := p.publicKey
  presharedKey := p.presharedKey
  allowedIps := [⟨p.vpnIp, 32⟩]
  persistentKeepalive := p.persistentKeepalive

def peerSection (p : DesiredPeer) : Ini.Section where
  name := "Peer".toList
  entries :=
    ("PublicKey".toList, p.publicKey.toList) ::
      (p.presharedKey.toList.map fun psk => ("PresharedKey".toList, psk.toList)) ++
      [("AllowedIPs".toList, (dotted p.vpnIp ++ "/32").toList),
        ("PersistentKeepalive".toList, (toString p.persistentKeepalive).toList)]

def interfaceSection (privateKey : String) : Ini.Section where
  name := "Interface".toList
  entries := [("PrivateKey".toList, privateKey.toList), ("ListenPort".toList, (toString listenPort).toList)]

theorem peerSection_name (p : DesiredPeer) : (peerSection p).name = "Peer".toList := rfl

theorem peerSection_entries (p : DesiredPeer) :
    (peerSection p).entries = ("PublicKey".toList, p.publicKey.toList) ::
      (p.presharedKey.toList.map fun psk => ("PresharedKey".toList, psk.toList)) ++
      [("AllowedIPs".toList, (dotted p.vpnIp ++ "/32").toList),
        ("PersistentKeepalive".toList, (toString p.persistentKeepalive).toList)] := rfl

theorem renderPeer_toList (p : DesiredPeer) :
    (renderPeer p).toList = unlines ([] :: sectionLines (peerSection p)) := by
  unfold renderPeer
  cases hpsk : p.presharedKey with
  | none =>
      simp [peerSection_name, peerSection_entries, hpsk, sectionLines, headerLine, entryLine,
        unlines, String.toList_append]
  | some psk =>
      simp [peerSection_name, peerSection_entries, hpsk, sectionLines, headerLine, entryLine,
        unlines, String.toList_append]

end Sections

section PlainWords

/-- A character of a key, a number or an address. -/
def isWordChar (c : Char) : Bool := decide (43 ≤ c.toNat ∧ c.toNat ≤ 122)

theorem isPlain_of_isWordChar {c : Char} (h : isWordChar c = true) : isPlain c = true := by
  simp only [isWordChar, decide_eq_true_eq] at h
  have hspace : isWhitespace c = false := by
    simp only [isWhitespace, Bool.or_eq_false_iff, decide_eq_false_iff_not, beq_eq_false_iff_ne]
    omega
  have hcomment : c ≠ '#' := by
    rintro rfl
    exact absurd h (by decide)
  exact isPlain_iff.mpr ⟨hspace, hcomment⟩

theorem isWordChar_of_base64 {c : Char} {n : Nat} (h : base64Value c = some n) :
    isWordChar c = true := by
  have hnum : ∀ d : Char, d ≤ c ↔ d.toNat ≤ c.toNat := fun _ => Iff.rfl
  have hnum' : ∀ d : Char, c ≤ d ↔ c.toNat ≤ d.toNat := fun _ => Iff.rfl
  have hA : 'A'.toNat = 65 := rfl
  have hZ : 'Z'.toNat = 90 := rfl
  have ha : 'a'.toNat = 97 := rfl
  have hz : 'z'.toNat = 122 := rfl
  have h0 : '0'.toNat = 48 := rfl
  have h9 : '9'.toNat = 57 := rfl
  unfold base64Value at h
  simp only [isWordChar, decide_eq_true_eq]
  simp only [hnum, hnum', hA, hZ, ha, hz, h0, h9] at h
  split_ifs at h with hupper hlower hdigit hplus hslash
  · omega
  · omega
  · omega
  · subst hplus
    decide
  · subst hslash
    decide

/-- A key is a word of 44 characters. -/
theorem validKey_chars {key : String} (h : validKey key = true) :
    key.toList.length = 44 ∧ ∀ c ∈ key.toList, isWordChar c = true := by
  simp only [validKey, Bool.and_eq_true, beq_iff_eq, List.all_eq_true] at h
  obtain ⟨⟨⟨hlength, hlast⟩, hall⟩, _⟩ := h
  refine ⟨hlength, ?_⟩
  intro c hc
  obtain ⟨i, hi, rfl⟩ := List.mem_iff_getElem.mp hc
  by_cases hlt : i < 43
  · have hmem : key.toList[i] ∈ key.toList.take 43 := by
      rw [List.mem_take_iff_getElem]
      exact ⟨i, by omega, rfl⟩
    obtain ⟨n, hn⟩ := Option.isSome_iff_exists.mp (hall _ hmem)
    exact isWordChar_of_base64 hn
  · have hi43 : i = 43 := by omega
    subst hi43
    rw [List.getElem?_eq_getElem hi, Option.some.injEq] at hlast
    rw [hlast]
    decide

theorem plain_of_word {cs : List Char} (hne : cs ≠ []) (h : ∀ c ∈ cs, isWordChar c = true) :
    Plain cs :=
  ⟨hne, fun c hc => isPlain_of_isWordChar (h c hc)⟩

theorem validKey_plain {key : String} (h : validKey key = true) : Plain key.toList := by
  obtain ⟨hlength, hchars⟩ := validKey_chars h
  refine plain_of_word ?_ hchars
  intro hnil
  rw [hnil] at hlength
  cases hlength

theorem toString_ne_nil (n : Nat) : (toString n).toList ≠ [] := by
  obtain ⟨c, cs, h, _⟩ := Json.toString_nat_cons n
  rw [h]
  exact List.cons_ne_nil c cs

/-- An address has digits and dots. -/
theorem dotted_chars (ip : BitVec 32) :
    ∀ c ∈ (dotted ip).toList, c.isDigit = true ∨ c = '.' := by
  intro c hc
  have hdot : ∀ d ∈ ".".toList, d = '.' := by simp
  unfold dotted at hc
  simp only [String.toList_append, List.mem_append] at hc
  rcases hc with (((((hc | hc) | hc) | hc) | hc) | hc) | hc
  · exact .inl (Json.all_isDigit_toString _ c hc)
  · exact .inr (hdot c hc)
  · exact .inl (Json.all_isDigit_toString _ c hc)
  · exact .inr (hdot c hc)
  · exact .inl (Json.all_isDigit_toString _ c hc)
  · exact .inr (hdot c hc)
  · exact .inl (Json.all_isDigit_toString _ c hc)

theorem dotted_ne {ip : BitVec 32} {c d : Char} (hc : c ∈ (dotted ip).toList)
    (hd : d.isDigit = false) (hdot : d ≠ '.') : c ≠ d := by
  rintro rfl
  rcases dotted_chars ip c hc with h | h
  · rw [h] at hd
    cases hd
  · exact hdot h

theorem isWordChar_of_isDigit {c : Char} (h : c.isDigit = true) : isWordChar c = true := by
  have hdigit := Char.isDigit_iff_toNat.mp h
  have h0 : '0'.toNat = 48 := rfl
  have h9 : '9'.toNat = 57 := rfl
  simp only [isWordChar, decide_eq_true_eq]
  omega

theorem isWordChar_toString (n : Nat) : ∀ c ∈ (toString n).toList, isWordChar c = true :=
  fun c hc => isWordChar_of_isDigit (Json.all_isDigit_toString n c hc)

theorem allowedIp_toList (ip : BitVec 32) :
    (dotted ip ++ "/32").toList = (dotted ip).toList ++ '/' :: (toString 32).toList := by
  rw [String.toList_append]
  rfl

theorem allowedIp_chars (ip : BitVec 32) :
    ∀ c ∈ (dotted ip ++ "/32").toList, isWordChar c = true := by
  intro c hc
  rw [allowedIp_toList, List.mem_append, List.mem_cons] at hc
  rcases hc with hc | rfl | hc
  · rcases dotted_chars ip c hc with h | rfl
    · exact isWordChar_of_isDigit h
    · decide
  · decide
  · exact isWordChar_of_isDigit (Json.all_isDigit_toString _ c hc)

theorem allowedIp_no_comma (ip : BitVec 32) : ',' ∉ (dotted ip ++ "/32").toList := by
  rw [allowedIp_toList, List.mem_append, List.mem_cons]
  rintro (hc | hc | hc)
  · exact dotted_ne hc rfl (by decide) rfl
  · cases hc
  · exact absurd (Json.all_isDigit_toString _ _ hc) (by decide)

theorem allowedIp_plain (ip : BitVec 32) : Plain (dotted ip ++ "/32").toList := by
  refine plain_of_word ?_ (allowedIp_chars ip)
  rw [String.toList_append]
  exact List.append_ne_nil_of_right_ne_nil _ (by simp)

theorem key_of_word {cs : List Char} (hne : cs ≠ [])
    (h : ∀ c ∈ cs, isWordChar c = true ∧ c ≠ '=' ∧ c ≠ '[') : Key cs := by
  refine ⟨plain_of_word hne fun c hc => (h c hc).1, fun hmem => (h _ hmem).2.1 rfl, ?_⟩
  intro hhead
  exact (h _ (List.mem_of_mem_head? hhead)).2.2 rfl

/-- The names of the configuration are keys. -/
theorem key_names : ∀ name ∈ ["Interface", "Peer", "PrivateKey", "ListenPort", "PublicKey",
    "PresharedKey", "AllowedIPs", "PersistentKeepalive"], Key name.toList := by
  intro name hname
  have hall : ["Interface", "Peer", "PrivateKey", "ListenPort", "PublicKey", "PresharedKey",
      "AllowedIPs", "PersistentKeepalive"].all (fun name => !name.toList.isEmpty &&
        name.toList.all fun c => isWordChar c && c != '=' && c != '[') = true := by decide
  have hone := List.all_eq_true.mp hall name hname
  simp only [Bool.and_eq_true, List.all_eq_true, bne_iff_ne, ne_eq] at hone
  refine key_of_word (by simpa using hone.1) ?_
  intro c hc
  obtain ⟨⟨hword, heq⟩, hbracket⟩ := hone.2 c hc
  exact ⟨hword, heq, hbracket⟩

theorem interfaceSection_plain {privateKey : String} (h : validKey privateKey = true) :
    (interfaceSection privateKey).Plain := by
  have hkey := key_names "PrivateKey" (by simp)
  have hport := key_names "ListenPort" (by simp)
  have hvalue : Plain (toString listenPort).toList :=
    plain_of_word (toString_ne_nil _) (isWordChar_toString _)
  refine ⟨(key_names "Interface" (by simp)).1, ?_⟩
  unfold interfaceSection
  rw [List.forall_mem_cons, List.forall_mem_singleton]
  exact ⟨⟨hkey, validKey_plain h⟩, hport, hvalue⟩

theorem peerSection_plain {serverPublicKey : String} {p : DesiredPeer}
    (h : DesiredState.ValidPeer serverPublicKey p) : (peerSection p).Plain := by
  have hips := allowedIp_plain p.vpnIp
  have hkeepalive : Plain (toString p.persistentKeepalive).toList :=
    plain_of_word (toString_ne_nil _) (isWordChar_toString _)
  refine ⟨(key_names "Peer" (by simp)).1, ?_⟩
  rintro ⟨key, value⟩ hentry
  simp only [-String.reduceToList, peerSection_entries, List.cons_append, List.mem_cons,
    List.mem_append, List.mem_map, List.not_mem_nil, or_false, Prod.mk.injEq] at hentry ⊢
  rcases hentry with ⟨hkey, hvalue⟩ | ⟨psk, hpsk, hkey, hvalue⟩ | ⟨hkey, hvalue⟩ | ⟨hkey, hvalue⟩
  · rw [hkey, hvalue]
    exact ⟨key_names "PublicKey" (by simp), validKey_plain h.publicKey⟩
  · rw [← hkey, ← hvalue]
    exact ⟨key_names "PresharedKey" (by simp),
      validKey_plain (h.presharedKey psk (by simpa using hpsk))⟩
  · rw [hkey, hvalue]
    exact ⟨key_names "AllowedIPs" (by simp), hips⟩
  · rw [hkey, hvalue]
    exact ⟨key_names "PersistentKeepalive" (by simp), hkeepalive⟩

end PlainWords

section Reading

theorem readNumber_toString (n : Nat) : readNumber (toString n).toList = some n := by
  have h := Json.readNat_toString n Json.stops_nil
  rw [List.append_nil] at h
  unfold readNumber
  rw [h]

theorem readAllowedIp_text (ip : BitVec 32) (n : Nat) :
    readAllowedIp ((dotted ip).toList ++ '/' :: (toString n).toList) = some ⟨ip, n⟩ := by
  have hno : ∀ c ∈ (dotted ip).toList, (c != '/') = true := fun c hc =>
    bne_iff_ne.mpr (dotted_ne hc rfl (by decide))
  have hbefore : ((dotted ip).toList ++ '/' :: (toString n).toList).takeWhile
      (fun c => c != '/') = (dotted ip).toList := by
    rw [List.takeWhile_append_of_pos hno]
    simp
  have hafter : (((dotted ip).toList ++ '/' :: (toString n).toList).dropWhile
      fun c => c != '/').tail = (toString n).toList := by
    rw [List.dropWhile_append_of_pos hno]
    rfl
  have haddress : Wire.readDotted (dotted ip).toList = some ip := Wire.parseDotted_dotted ip
  unfold readAllowedIp
  rw [hbefore, hafter, haddress, readNumber_toString]
  rfl

theorem readAllowedIp_host (ip : BitVec 32) :
    readAllowedIp (dotted ip ++ "/32").toList = some ⟨ip, 32⟩ := by
  rw [allowedIp_toList]
  exact readAllowedIp_text ip 32

theorem readInterface_entries {port : Nat} {word : List Char} (hport : readNumber word = some port)
    (privateKey : String) :
    readInterface [("PrivateKey".toList, privateKey.toList), ("ListenPort".toList, word)] =
      some ⟨privateKey, port⟩ := by
  simp [-String.reduceToList, readInterface, onlyKeys, single, valuesOf, String.toList_inj, hport]

theorem readInterface_section (privateKey : String) :
    readInterface (interfaceSection privateKey).entries = some ⟨privateKey, listenPort⟩ :=
  readInterface_entries (readNumber_toString listenPort) privateKey

theorem readPeer_section (p : DesiredPeer) : readPeer (peerSection p).entries = some p.conf := by
  have hplain : Plain (dotted p.vpnIp ++ "/32").toList := allowedIp_plain p.vpnIp
  have hips : ((dotted p.vpnIp ++ "/32").toList.splitOn ',').mapM
      (fun ip => readAllowedIp (trim ip)) = some [⟨p.vpnIp, 32⟩] := by
    rw [List.splitOn_eq_singleton (allowedIp_no_comma p.vpnIp)]
    simp only [List.mapM_cons, List.mapM_nil, hplain.trim_eq, readAllowedIp_host]
    rfl
  have hkeepalive := readNumber_toString p.persistentKeepalive
  rw [peerSection_entries]
  generalize (dotted p.vpnIp ++ "/32").toList = ips at hips
  generalize (toString p.persistentKeepalive).toList = keepalive at hkeepalive
  cases hpsk : p.presharedKey with
  | none =>
      simp [-String.reduceToList, readPeer, onlyKeys, single, atMostOne, valuesOf,
        String.toList_inj, hpsk, hips, hkeepalive, DesiredPeer.conf]
  | some psk =>
      simp [-String.reduceToList, readPeer, onlyKeys, single, atMostOne, valuesOf,
        String.toList_inj, hpsk, hips, hkeepalive, DesiredPeer.conf]

end Reading

section Rendering

/-- The lines of a configuration. -/
def configLines (privateKey : String) (peers : List DesiredPeer) : List (List Char) :=
  sectionLines (interfaceSection privateKey) ++
    peers.flatMap fun p => [] :: sectionLines (peerSection p)

/-- The order of `sort_by`. -/
def keyLe (a b : DesiredPeer) : Bool := decide (a.publicKey ≤ b.publicKey)

/-- The peers that are rendered, in their order. -/
def sortedPeers (state : DesiredState) : List DesiredPeer :=
  (state.peers.filter (·.enabled)).mergeSort keyLe

def configText (privateKey : String) (peers : List DesiredPeer) : String :=
  "[Interface]\n" ++ "PrivateKey = " ++ privateKey ++ "\n" ++
    "ListenPort = " ++ toString listenPort ++ "\n" ++ String.join (peers.map renderPeer)

theorem configText_toList (privateKey : String) (peers : List DesiredPeer) :
    (configText privateKey peers).toList = unlines (configLines privateKey peers) := by
  have hpeers : (String.join (peers.map renderPeer)).toList =
      unlines (peers.flatMap fun p => [] :: sectionLines (peerSection p)) := by
    induction peers with
    | nil =>
        rfl
    | cons p peers ih =>
        rw [List.map_cons, String.join_cons, String.toList_append, ih, renderPeer_toList]
        simp [unlines]
  have hhead : ∀ port : String, ("[Interface]\n" ++ "PrivateKey = " ++ privateKey ++ "\n" ++
      "ListenPort = " ++ port ++ "\n").toList =
        unlines [headerLine "Interface".toList, entryLine ("PrivateKey".toList, privateKey.toList),
          entryLine ("ListenPort".toList, port.toList)] := by
    intro port
    simp [headerLine, entryLine, unlines, String.toList_append]
  have happend : ∀ ls ls' : List (List Char), unlines (ls ++ ls') = unlines ls ++ unlines ls' :=
    fun _ _ => List.flatMap_append
  unfold configText configLines
  rw [String.toList_append, hpeers, hhead, happend]
  rfl

variable (digest : DesiredState → String)

theorem render_eq_ok {state : DesiredState} {privateKey : String} {config : SensitiveWgConfig} :
    render digest state privateKey = .ok config ↔
      0 < state.revision ∧ state.ValidContent ∧ validKey privateKey = true ∧
        config = ⟨configText privateKey (sortedPeers state)⟩ := by
  have hserver : state.ValidContent → state.serverPublicKey ≠ "" := by
    intro hcontent hempty
    have hlength := (validKey_chars hcontent.serverPublicKey).1
    rw [hempty] at hlength
    cases hlength
  unfold render
  simp only [bind_eq_ok, ensure_eq_ok, pure_eq_ok, DesiredState.validate_eq_ok, bne_iff_ne,
    DesiredState.validateContent_eq_ok]
  constructor
  · rintro ⟨_, ⟨hrev, hcontent, _⟩, _, hkey, _, _, rfl⟩
    exact ⟨by omega, hcontent, hkey, rfl⟩
  · rintro ⟨hrev, hcontent, hkey, rfl⟩
    exact ⟨_, ⟨by omega, hcontent, rfl⟩, (), hkey, (), hserver hcontent, rfl⟩

theorem sortedPeers_perm (state : DesiredState) :
    (sortedPeers state).Perm (state.peers.filter (·.enabled)) :=
  List.mergeSort_perm _ _

variable {state : DesiredState}

/-- Valid states have one peer for a key, so that the order is strict. -/
theorem sortedPeers_pairwise (h : state.ValidContent) :
    (sortedPeers state).Pairwise fun a b => a.publicKey < b.publicKey := by
  have hle : (sortedPeers state).Pairwise fun a b => keyLe a b = true := by
    refine List.pairwise_mergeSort ?_ ?_ _
    · intro a b c hab hbc
      simp only [keyLe, decide_eq_true_eq] at hab hbc ⊢
      exact String.le_trans hab hbc
    · intro a b
      simp only [keyLe, Bool.or_eq_true, decide_eq_true_eq]
      exact String.le_total _ _
  have hkeys : ((sortedPeers state).map (·.publicKey)).Nodup := by
    refine ((sortedPeers_perm state).map _).nodup_iff.mpr ?_
    exact h.keys.sublist (List.filter_sublist.map _)
  rw [List.Nodup, List.pairwise_map] at hkeys
  refine (hle.and hkeys).imp ?_
  rintro a b ⟨hab, hne⟩
  simp only [keyLe, decide_eq_true_eq] at hab
  exact lt_of_le_of_ne hab hne

/-- The order of the peers and the disabled peers do not matter. -/
theorem sortedPeers_congr {other : DesiredState} (h : state.ValidContent)
    (hother : other.ValidContent)
    (hperm : (other.peers.filter (·.enabled)).Perm (state.peers.filter (·.enabled))) :
    sortedPeers other = sortedPeers state := by
  refine List.Perm.eq_of_pairwise ?_ (sortedPeers_pairwise hother) (sortedPeers_pairwise h) ?_
  · intro a b _ _ hab hba
    exact absurd hab (lt_asymm hba)
  · exact (sortedPeers_perm other).trans (hperm.trans (sortedPeers_perm state).symm)

theorem DesiredState.ValidContent.perm {other : DesiredState} (h : state.ValidContent)
    (hserver : other.serverPublicKey = state.serverPublicKey)
    (hperm : other.peers.Perm state.peers) : other.ValidContent where
  serverPublicKey := by rw [hserver]; exact h.serverPublicKey
  length_le := by rw [hperm.length_eq]; exact h.length_le
  valid := by
    intro peer hpeer
    rw [hserver]
    exact h.valid peer (hperm.mem_iff.mp hpeer)
  keys := (hperm.map _).nodup_iff.mpr h.keys
  ips := (hperm.map _).nodup_iff.mpr h.ips

theorem lines_configText {privateKey : String} (hkey : validKey privateKey = true)
    {serverPublicKey : String} {peers : List DesiredPeer}
    (h : ∀ p ∈ peers, DesiredState.ValidPeer serverPublicKey p) :
    lines (configText privateKey peers).toList = configLines privateKey peers := by
  rw [configText_toList]
  refine lines_unlines ?_
  intro line hline
  rcases List.mem_append.mp hline with hline | hline
  · exact sectionLines_break (interfaceSection_plain hkey) line hline
  · obtain ⟨p, hp, hline⟩ := List.mem_flatMap.mp hline
    rcases List.mem_cons.mp hline with rfl | hline
    · simp
    · exact sectionLines_break (peerSection_plain (h p hp)) line hline

theorem parse_configText {privateKey : String} (hkey : validKey privateKey = true)
    {serverPublicKey : String} {peers : List DesiredPeer}
    (h : ∀ p ∈ peers, DesiredState.ValidPeer serverPublicKey p) :
    Ini.parse (configText privateKey peers).toList =
      some (interfaceSection privateKey :: peers.map peerSection) := by
  have hpeers : parseLines (peers.flatMap fun p => [] :: sectionLines (peerSection p)) =
      some ([], peers.map peerSection) := by
    induction peers with
    | nil =>
        rfl
    | cons p peers ih =>
        have htail := ih fun q hq => h q (List.mem_cons_of_mem _ hq)
        rw [List.flatMap_cons, List.cons_append, List.map_cons]
        exact parseLines_blank
          (parseLines_section (peerSection_plain (h p List.mem_cons_self)) htail)
  have hall := parseLines_section (interfaceSection_plain hkey) hpeers
  unfold Ini.parse
  rw [lines_configText hkey h, configLines, hall]
  rfl

theorem readSections_config (privateKey : String) (peers : List DesiredPeer) :
    readSections (interfaceSection privateKey :: peers.map peerSection) =
      some ⟨[⟨privateKey, listenPort⟩], peers.map DesiredPeer.conf⟩ := by
  have hpeers : readSections (peers.map peerSection) = some ⟨[], peers.map DesiredPeer.conf⟩ := by
    induction peers with
    | nil =>
        rfl
    | cons p peers ih =>
        have hpeer : (peerSection p).name = "Peer".toList := rfl
        have hname : ¬ (peerSection p).name = "Interface".toList := by
          rw [hpeer, String.toList_inj]
          decide
        rw [List.map_cons, readSections, ih]
        simp only [Option.bind_eq_bind, Option.bind_some]
        rw [if_neg hname, if_pos hpeer, readPeer_section]
        rfl
  have hinterface : (interfaceSection privateKey).name = "Interface".toList := rfl
  rw [readSections, hpeers]
  simp only [Option.bind_eq_bind, Option.bind_some]
  rw [if_pos hinterface, readInterface_section]
  rfl

theorem sortedPeers_valid (h : state.ValidContent) :
    ∀ p ∈ sortedPeers state, DesiredState.ValidPeer state.serverPublicKey p := by
  intro p hp
  exact h.valid p (List.mem_filter.mp ((sortedPeers_perm state).mem_iff.mp hp)).1

theorem parseConf_configText (h : state.ValidContent) {privateKey : String}
    (hkey : validKey privateKey = true) :
    parseConf (configText privateKey (sortedPeers state)) =
      some ⟨[⟨privateKey, 51820⟩], (sortedPeers state).map DesiredPeer.conf⟩ := by
  unfold parseConf
  rw [parse_configText hkey (sortedPeers_valid h), Option.bind_some]
  exact readSections_config privateKey (sortedPeers state)

/-- The rendered text has exactly the lines of one interface and of the enabled peers and means
just that.  It depends neither on the order of the peers nor on disabled peers. -/
theorem render_means_state {privateKey : String} {config : SensitiveWgConfig}
    (h : render digest state privateKey = .ok config) :
    (∃ peers : List DesiredPeer, peers.Perm (state.peers.filter (·.enabled)) ∧
      (peers.Pairwise fun a b => a.publicKey < b.publicKey) ∧
      parseConf config.text = some ⟨[⟨privateKey, 51820⟩], peers.map DesiredPeer.conf⟩ ∧
      lines config.text.toList = configLines privateKey peers) ∧
    (∀ other : DesiredState, other.revision = state.revision →
      other.serverPublicKey = state.serverPublicKey → other.peers.Perm state.peers →
        render digest other privateKey = .ok config) ∧
    (∀ (other : DesiredState) (config' : SensitiveWgConfig),
      (other.peers.filter (·.enabled)).Perm (state.peers.filter (·.enabled)) →
        render digest other privateKey = .ok config' → config' = config) := by
  obtain ⟨hrev, hcontent, hkey, rfl⟩ := (render_eq_ok digest).mp h
  refine ⟨⟨sortedPeers state, sortedPeers_perm state, sortedPeers_pairwise hcontent,
    parseConf_configText hcontent hkey, lines_configText hkey (sortedPeers_valid hcontent)⟩, ?_, ?_⟩
  · intro other hrevision hserver hperm
    have hother := hcontent.perm hserver hperm
    refine (render_eq_ok digest).mpr ⟨by omega, hother, hkey, ?_⟩
    rw [sortedPeers_congr hcontent hother (hperm.filter _)]
  · intro other config' hperm hrender
    obtain ⟨_, hother, _, rfl⟩ := (render_eq_ok digest).mp hrender
    rw [sortedPeers_congr hcontent hother hperm]

/-- The text of a key of equal bytes. -/
def keyOf (c : Char) : String := String.ofList (List.replicate 42 c ++ ['A', '='])

theorem validKey_keyOf {c : Char} (h : (base64Value c).isSome = true) :
    validKey (keyOf c) = true := by
  have hzero : base64Value 'A' = some 0 := by decide
  unfold validKey keyOf
  rw [String.toList_ofList]
  simp [List.replicate, h, hzero]

theorem keyOf_injective : Function.Injective keyOf := by
  intro c d h
  have hchars := String.ofList_injective h
  simp only [List.replicate, List.cons_append, List.cons.injEq] at hchars
  exact hchars.1

/-- Two enabled peers and a disabled one. -/
def threePeers : DesiredState where
  revision := 1
  serverPublicKey := keyOf 'B'
  peers :=
    [⟨keyOf 'D', 0x0a0003fe, true, some (keyOf 'E'), 30⟩, ⟨keyOf 'C', 0x0a000002, true, none, 0⟩,
      ⟨keyOf 'F', 0x0a000003, false, none, 30⟩]

theorem threePeers_valid : threePeers.ValidContent where
  serverPublicKey := validKey_keyOf rfl
  length_le := by decide
  valid := by
    have hne : ∀ c, c ≠ 'B' → keyOf c ≠ keyOf 'B' := fun _ hc => keyOf_injective.ne hc
    intro peer hpeer
    simp only [threePeers, List.mem_cons, List.not_mem_nil, or_false] at hpeer
    rcases hpeer with rfl | rfl | rfl
    · exact ⟨validKey_keyOf rfl, by rintro psk ⟨⟩; exact validKey_keyOf rfl, hne 'D' (by decide),
        by decide⟩
    · exact ⟨validKey_keyOf rfl, by rintro psk ⟨⟩, hne 'C' (by decide), by decide⟩
    · exact ⟨validKey_keyOf rfl, by rintro psk ⟨⟩, hne 'F' (by decide), by decide⟩
  keys := by
    simp only [threePeers, List.map_cons, List.map_nil, List.nodup_cons, List.mem_cons,
      List.not_mem_nil, or_false, not_or, List.nodup_nil, and_true, not_false_eq_true]
    exact ⟨⟨fun h => absurd (keyOf_injective h) (by decide), fun h => absurd (keyOf_injective h) (by decide)⟩,
      fun h => absurd (keyOf_injective h) (by decide)⟩
  ips := by decide

theorem render_means_sample :
    render (fun _ => "") threePeers (keyOf 'G') =
      .ok ⟨configText (keyOf 'G') (sortedPeers threePeers)⟩ ∧
    ∃ peers : List DesiredPeer, peers.Perm (threePeers.peers.filter (·.enabled)) ∧
      (peers.Pairwise fun a b => a.publicKey < b.publicKey) ∧
      parseConf (configText (keyOf 'G') (sortedPeers threePeers)) =
        some ⟨[⟨keyOf 'G', 51820⟩], peers.map DesiredPeer.conf⟩ ∧
      lines (configText (keyOf 'G') (sortedPeers threePeers)).toList =
        configLines (keyOf 'G') peers := by
  have hrender : render (fun _ => "") threePeers (keyOf 'G') =
      .ok ⟨configText (keyOf 'G') (sortedPeers threePeers)⟩ :=
    (render_eq_ok _).mpr ⟨by decide, threePeers_valid, validKey_keyOf rfl, rfl⟩
  exact ⟨hrender, (render_means_state _ hrender).1⟩

end Rendering

end HostAgent
end ZeroVpn
