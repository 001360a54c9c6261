import ZeroVpn.HostAgent.Framing
import ZeroVpn.HostAgent.WgVerify

/-!
# The size of a valid state

`load_agent_token` of `crates/zerovpn-host-agent/src/secret_file.rs`, and the
length of the requests that carry a whole state.

A valid state has distinct addresses of 10.0.0.0/22, so it has at most as many
peers as there are addresses.  Every field of a peer has a bounded text, and the
token at most 4096 characters, so that the request stays below the limit of the
socket.
-/

namespace ZeroVpn

open Library Library.Json

namespace HostAgent

structure FileMetadata where
  isDir : Bool
  isFile : Bool
  mode : Nat
  uid : Nat
  len : Nat
  deriving DecidableEq, Repr

/-- A protected file: its directory, if it can be inspected, and the file with its
bytes, if it can be opened. -/
structure SecretFile where
  effectiveUid : Nat
  directory : Option FileMetadata
  file : Option (FileMetadata × List UInt8)
  deriving DecidableEq, Repr

/-- `while content.ends_with('\n') || content.ends_with('\r')`. -/
def popLineEnds (content : String) : String :=
  String.ofList (content.toList.reverse.dropWhile fun c => c == '\n' || c == '\r').reverse

/-- `load_owner_only_text`. -/
def loadOwnerOnlyText (path : SecretFile) (maximumBytes : Nat) : Except String String := do
  let directory ← expect "cannot inspect server key directory" path.directory
  ensure directory.isDir "server key parent must be a real directory"
  ensure (directory.mode &&& 0o022 == 0) "server key directory is group/world writable"
  ensure (directory.uid == path.effectiveUid) "server key directory owner mismatch"
  let (metadata, bytes) ← expect "cannot open protected server key" path.file
  ensure metadata.isFile "server key must be a regular file"
  ensure (metadata.uid == path.effectiveUid) "server key owner mismatch"
  ensure (metadata.mode &&& 0o077 == 0) "server key must be owner-only"
  ensure (decide (metadata.len ≤ maximumBytes)) "protected file too large"
  let content ← expect "stream did not contain valid UTF-8"
    (String.fromUTF8? (bytes.take (maximumBytes + 1)).toByteArray)
  ensure (decide (content.utf8ByteSize ≤ maximumBytes)) "protected file too large"
  pure (popLineEnds content)

/-- `load_agent_token`. -/
def loadAgentToken (path : SecretFile) : Except String String := do
  let content ← loadOwnerOnlyText path 4096
  ensure (decide (32 ≤ content.utf8ByteSize)) "agent token must contain at least 32 characters"
  ensure (!content.toList.any Text.isWhitespace) "agent token contains whitespace"
  pure content

section Token

/-- A text has no more characters than bytes. -/
theorem length_le_utf8ByteSize (s : String) : s.toList.length ≤ s.utf8ByteSize := by
  have hbytes : ∀ cs : List Char, cs.length ≤ (utf8 cs).length := by
    intro cs
    induction cs with
    | nil =>
        exact Nat.zero_le _
    | cons c cs ih =>
        have hc := c.utf8Size_pos
        rw [length_utf8_cons, List.length_cons]
        omega
  have hsize : s.utf8ByteSize = (utf8 s.toList).length := by
    rw [← String.size_toByteArray, ← String.utf8Encode_toList, List.utf8Encode,
      List.size_toByteArray]
    rfl
  rw [hsize]
  exact hbytes s.toList

theorem length_popLineEnds (content : String) :
    (popLineEnds content).toList.length ≤ content.toList.length := by
  have hreverse : content.toList.reverse.length = content.toList.length := List.length_reverse
  unfold popLineEnds
  rw [String.toList_ofList, List.length_reverse, ← hreverse]
  exact (List.dropWhile_sublist _).length_le

/-- A token has at most 4096 characters. -/
theorem length_token {path : SecretFile} {token : String} (h : loadAgentToken path = .ok token) :
    token.toList.length ≤ 4096 := by
  simp only [loadAgentToken, loadOwnerOnlyText, bind_eq_ok, pure_eq_ok, ensure_eq_ok,
    decide_eq_true_eq] at h
  obtain ⟨content, ⟨_, _, _, _, _, _, _, _, _, _, _, _, _, _, _, _, _, _, read, _, _, hsize, hread⟩,
    _, _, _, _, rfl⟩ := h
  rw [← hread]
  exact (length_popLineEnds read).trans ((length_le_utf8ByteSize read).trans hsize)

end Token

section Addresses

/-- The usable addresses lie in a block of 1024. -/
theorem usableIp_block {ip : BitVec 32} (h : usableIp ip = true) :
    ip.toNat ∈ List.range' 167772160 1024 := by
  have hlt := ip.isLt
  simp only [usableIp, Nat.shiftRight_eq_div_pow, Bool.and_eq_true, beq_iff_eq,
    decide_eq_true_eq] at h
  obtain ⟨⟨⟨hfirst, hsecond⟩, hthird⟩, _⟩ := h
  rw [List.mem_range'_1]
  omega

/-- Distinct usable addresses are at most 1024. -/
theorem length_usable {ips : List (BitVec 32)} (hnodup : ips.Nodup)
    (h : ∀ ip ∈ ips, usableIp ip = true) : ips.length ≤ 1024 := by
  have hnumbers : (ips.map BitVec.toNat).Nodup :=
    hnodup.map fun _ _ => BitVec.eq_of_toNat_eq
  have hblock : ips.map BitVec.toNat ⊆ List.range' 167772160 1024 := by
    intro n hn
    obtain ⟨ip, hip, rfl⟩ := List.mem_map.mp hn
    exact usableIp_block (h ip hip)
  have hlength := (List.subperm_of_subset hnumbers hblock).length_le
  rwa [List.length_map, List.length_range'] at hlength

/-- A state without a duplicate address has at most 1024 peers. -/
theorem length_peers {serverPublicKey : String} {peers : List DesiredPeer}
    (hvalid : ∀ peer ∈ peers, DesiredState.ValidPeer serverPublicKey peer)
    (hips : (peers.map (·.vpnIp)).Nodup) : peers.length ≤ 1024 := by
  have hlength := length_usable hips fun ip hip => by
    obtain ⟨peer, hpeer, rfl⟩ := List.mem_map.mp hip
    exact (hvalid peer hpeer).vpnIp
  rwa [List.length_map] at hlength

theorem length_dotted (ip : BitVec 32) : (dotted ip).toList.length ≤ 15 := by
  have hoctet : ∀ n : Nat, (toString (n % 256)).toList.length ≤ 3 := by
    intro n
    change (Nat.repr (n % 256)).toList.length ≤ 3
    rw [String.length_toList]
    exact (Nat.length_repr_le_iff (by decide)).mpr (by omega)
  have hdot : ".".toList.length = 1 := by decide
  have h₀ := hoctet (ip.toNat >>> (8 * (3 - 0)))
  have h₁ := hoctet (ip.toNat >>> (8 * (3 - 1)))
  have h₂ := hoctet (ip.toNat >>> (8 * (3 - 2)))
  have h₃ := hoctet (ip.toNat >>> (8 * (3 - 3)))
  simp only [dotted, String.toList_append, List.length_append, hdot]
  omega

end Addresses

section Sizes

theorem length_validKey {key : String} (h : validKey key = true) : key.toList.length = 44 := by
  simp only [validKey, Bool.and_eq_true, beq_iff_eq] at h
  exact h.1.1.1

/-- The sizes of the field names. -/
theorem length_names : (utf8 (quote "public_key")).length = 12 ∧
    (utf8 (quote "vpn_ip")).length = 8 ∧ (utf8 (quote "enabled")).length = 9 ∧
    (utf8 (quote "preshared_key")).length = 15 ∧
    (utf8 (quote "persistent_keepalive")).length = 22 ∧
    (utf8 (quote "revision")).length = 10 ∧ (utf8 (quote "server_public_key")).length = 19 ∧
    (utf8 (quote "peers")).length = 7 ∧ (utf8 (quote "version")).length = 9 ∧
    (utf8 (quote "token")).length = 7 ∧ (utf8 (quote "operation")).length = 11 ∧
    (utf8 (quote "name")).length = 6 ∧ (utf8 (quote "state")).length = 7 := by
  decide

/-- The text of a peer. -/
theorem length_peer {serverPublicKey : String} {p : Wire.DesiredPeer}
    (h : DesiredState.ValidPeer serverPublicKey p.model) : (bytes p.encode).length ≤ 730 := by
  have hkey : (bytes (Codec.ofString.encode p.publicKey)).length ≤ 266 := by
    have hlength := length_validKey h.publicKey
    have hbytes := length_bytes_str p.publicKey
    change p.publicKey.toList.length = 44 at hlength
    change (bytes (.str p.publicKey)).length ≤ 266
    omega
  have hip : (bytes (Wire.ipv4.encode p.vpnIp)).length ≤ 92 := by
    have hlength := length_dotted p.vpnIp
    have hbytes := length_bytes_str (dotted p.vpnIp)
    change (bytes (.str (dotted p.vpnIp))).length ≤ 92
    omega
  have henabled : (bytes (Codec.ofBool.encode p.enabled)).length ≤ 5 := length_bytes_bool p.enabled
  have hpsk : (bytes (Wire.optionString.encode p.presharedKey)).length ≤ 266 := by
    cases hpsk : p.presharedKey with
    | none =>
        exact length_bytes_null.trans (by decide)
    | some psk =>
        have hlength := length_validKey (h.presharedKey psk hpsk)
        have hbytes := length_bytes_str psk
        change (bytes (.str psk)).length ≤ 266
        omega
  have hkeepalive : (bytes (Codec.ofUInt16.encode p.persistentKeepalive)).length ≤ 20 :=
    length_bytes_num (k := 5) (by decide) (p.persistentKeepalive.toNat_lt.trans (by decide))
  have hfields := length_bytes_obj p.fields
  simp only [Wire.DesiredPeer.fields, List.map_cons, List.map_nil, List.sum_cons, List.sum_nil,
    length_names] at hfields
  change (bytes (.obj p.fields)).length ≤ 730
  simp only [Wire.DesiredPeer.fields]
  omega

/-- The text of a valid state. -/
theorem length_state {s : Wire.DesiredState} (h : s.model.ValidContent) :
    (bytes s.encode).length ≤ 749000 := by
  have hrevision : (bytes (Codec.ofUInt64.encode s.revision)).length ≤ 80 :=
    length_bytes_num (k := 20) (by decide) (s.revision.toNat_lt.trans (by decide))
  have hkey : (bytes (Codec.ofString.encode s.serverPublicKey)).length ≤ 266 := by
    have hlength := length_validKey h.serverPublicKey
    have hbytes := length_bytes_str s.serverPublicKey
    change s.serverPublicKey.toList.length = 44 at hlength
    change (bytes (.str s.serverPublicKey)).length ≤ 266
    omega
  have hcount : s.peers.length ≤ 1024 := by
    have hlength := length_peers h.valid h.ips
    simpa [Wire.DesiredState.model] using hlength
  have hpeers : (bytes ((Codec.list Wire.DesiredPeer.codec).encode s.peers)).length ≤
      s.peers.length * 731 + 2 := by
    have hitems : ∀ j ∈ s.peers.map Wire.DesiredPeer.codec.encode, (bytes j).length ≤ 730 := by
      intro j hj
      obtain ⟨p, hp, rfl⟩ := List.mem_map.mp hj
      exact length_peer (h.valid p.model (List.mem_map_of_mem hp))
    have hbytes := length_bytes_arr hitems
    rwa [List.length_map] at hbytes
  have hfields := length_bytes_obj (s.fields ((Codec.list Wire.DesiredPeer.codec).encode s.peers))
  simp only [Wire.DesiredState.fields, List.map_cons, List.map_nil, List.sum_cons, List.sum_nil,
    length_names] at hfields
  change (bytes (.obj (s.fields _))).length ≤ 749000
  simp only [Wire.DesiredState.fields]
  omega

/-- The text of a request that carries a valid state. -/
theorem length_payload {token : String} {operation : Wire.Operation} {s : Wire.DesiredState}
    (htoken : token.toList.length ≤ 4096) (hstate : operation.state? = some s)
    (hname : (utf8 (quote operation.name)).length ≤ 16) (h : s.model.ValidContent) :
    (payload token operation).length < maxMessageBytes := by
  have hversion : (bytes (Codec.ofUInt16.encode (UInt16.ofNat protocolVersion))).length ≤ 20 :=
    length_bytes_num (k := 5) (by decide)
      ((UInt16.ofNat protocolVersion).toNat_lt.trans (by decide))
  have hbytes : (bytes (Codec.ofString.encode token)).length ≤ 24578 := by
    have hlength := length_bytes_str token
    change (bytes (.str token)).length ≤ 24578
    omega
  have hoperation : (bytes operation.encode).length ≤ 749100 := by
    have hs := length_state h
    have htag : (bytes (.str operation.name)).length ≤ 16 := by
      rw [bytes, write_str]
      exact hname
    have hfields := length_bytes_obj (operation.fields (operation.state?.map (·.encode)))
    simp only [hstate, Wire.Operation.fields, Option.map_some, Option.toList_some, List.map_cons,
      List.map_nil, List.sum_cons, List.sum_nil, length_names] at hfields
    simp only [Wire.Operation.encode, hstate, Wire.Operation.fields, Option.map_some,
      Option.toList_some, List.map_cons, List.map_nil]
    omega
  have hfields := length_bytes_obj (Wire.Request.fields
    ⟨UInt16.ofNat protocolVersion, token, operation⟩ operation.encode)
  simp only [Wire.Request.fields, List.map_cons, List.map_nil, List.sum_cons, List.sum_nil,
    length_names] at hfields
  simp only [payload, Wire.Request.encode, Wire.Request.fields, maxMessageBytes]
  omega

end Sizes

/-- Every valid state can be sent, with every token, and `validate` refuses none for its size. -/
theorem valid_state_fits (sha256 : Sha256) (path : SecretFile) (token : String)
    (s : Wire.DesiredState) (appliedRevision : UInt64) (htoken : loadAgentToken path = .ok token) :
    (∀ d, s.validate sha256 appliedRevision = .ok d →
      (payload token (.applyState s)).length + 1 ≤ maxMessageBytes ∧
        (payload token (.validateState s)).length + 1 ≤ maxMessageBytes) ∧
      (appliedRevision < s.revision → validKey s.serverPublicKey = true →
        DesiredState.validatePeers s.serverPublicKey [] [] s.model.peers = .ok () →
        s.peers.length ≤ 4096 ∧ s.validate sha256 appliedRevision = .ok (s.digest sha256)) := by
  constructor
  · intro d hvalid
    obtain ⟨_, hcontent, _⟩ := (Wire.DesiredState.validate_eq_ok sha256).mp hvalid
    rw [DesiredState.validateContent_eq_ok] at hcontent
    have hlength := length_token htoken
    have happly : (utf8 (quote "apply_state")).length ≤ 16 := by decide
    have hvalidate : (utf8 (quote "validate_state")).length ≤ 16 := by decide
    exact ⟨length_payload hlength rfl happly hcontent, length_payload hlength rfl hvalidate hcontent⟩
  · intro hrevision hkey hpeers
    obtain ⟨hvalid, hkeys, hips⟩ := DesiredState.validatePeers_eq_ok.mp hpeers
    have hlength : s.model.peers.length ≤ 4096 :=
      (length_peers (fun peer hpeer => (hvalid peer hpeer).1) hips).trans (by decide)
    refine ⟨by simpa [Wire.DesiredState.model] using hlength, ?_⟩
    rw [Wire.DesiredState.validate_eq_ok, DesiredState.validateContent_eq_ok]
    exact ⟨hrevision, ⟨hkey, hlength, fun peer hpeer => (hvalid peer hpeer).1, hkeys, hips⟩, rfl⟩

/-- An owner-only file that holds a token and a line feed. -/
def sampleTokenFile : SecretFile where
  effectiveUid := 0
  directory := some ⟨true, false, 0o700, 0, 4096⟩
  file := some (⟨false, true, 0o600, 0, 33⟩,
    utf8 "0123456789abcdef0123456789abcde\"\n".toList)

def sampleFullState : Wire.DesiredState where
  revision := 7
  serverPublicKey := "AQEBAQEBAQEBAQEBAQEBAQEBAQEBAQEBAQEBAQEBAQE="
  peers := [⟨"AgICAgICAgICAgICAgICAgICAgICAgICAgICAgICAgI=", 0x0A000302, true, none, 25⟩]

theorem valid_state_fits_sample :
    loadAgentToken sampleTokenFile = .ok "0123456789abcdef0123456789abcde\"" ∧
      (payload "0123456789abcdef0123456789abcde\"" (.applyState sampleFullState)).length + 1 ≤
        maxMessageBytes := by
  have htoken : loadAgentToken sampleTokenFile = .ok "0123456789abcdef0123456789abcde\"" := by
    decide
  have hcontent : sampleFullState.model.validateContent = .ok () := by
    decide
  have hvalid : sampleFullState.validate shortSha256 3 =
      .ok (sampleFullState.digest shortSha256) :=
    (Wire.DesiredState.validate_eq_ok shortSha256).mpr ⟨by decide, hcontent, rfl⟩
  exact ⟨htoken,
    ((valid_state_fits shortSha256 sampleTokenFile _ sampleFullState 3 htoken).1 _ hvalid).1⟩

end HostAgent
end ZeroVpn
