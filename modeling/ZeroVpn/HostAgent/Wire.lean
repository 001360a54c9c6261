import Mathlib.Data.List.TakeWhile
import ZeroVpn.HostAgent.Firewall
import ZeroVpn.Library.JsonText

/-!
# The wire and journal types of the agent

`Request`, `Operation`, `Response` and `PeerStats` of
`crates/zerovpn-host-agent/src/lib.rs` and `DesiredState`, `DesiredPeer` and
`AppliedState` of `state.rs`, with the encoders and decoders that serde derives
for them: fields in their order, internally tagged enums, fields with a default
and records that refuse unknown keys.

A tree is `Short` for a value if it is its encoding, less some defaulted fields
that have their default.  `decode_short` reads such a tree, and removing one more
defaulted field leads to the value with this field reset.
-/

namespace ZeroVpn

open Library Library.Json

namespace HostAgent
namespace Wire

section Addresses

/-- One number of `Ipv4Addr::from_str`: at most three digits, no leading zero. -/
def readOctet (cs : List Char) : Option (Nat × List Char) :=
  let ds := cs.takeWhile Char.isDigit
  if ds.length = 0 ∨ 3 < ds.length ∨ (1 < ds.length ∧ ds.head? = some '0') then none
  else if Nat.ofDigitChars 10 ds 0 ≤ 255 then
    some (Nat.ofDigitChars 10 ds 0, cs.dropWhile Char.isDigit)
  else none

/-- A dot and a number. -/
def readDotOctet : List Char → Option (Nat × List Char)
  | '.' :: cs => readOctet cs
  | _ => none

/-- `Ipv4Addr::from_str`. -/
def readDotted (s : List Char) : Option (BitVec 32) := do
  let (a, cs) ← readOctet s
  let (b, cs) ← readDotOctet cs
  let (c, cs) ← readDotOctet cs
  let (d, cs) ← readDotOctet cs
  if cs = [] then some (.ofNat 32 (a * 16777216 + b * 65536 + c * 256 + d)) else none

theorem toDigits_octet : ∀ n : Fin 256,
    ¬ ((Nat.toDigits 10 n.val).length = 0 ∨ 3 < (Nat.toDigits 10 n.val).length ∨
      (1 < (Nat.toDigits 10 n.val).length ∧ (Nat.toDigits 10 n.val).head? = some '0')) := by
  decide +kernel

theorem readOctet_toString {n : Nat} (hn : n < 256) {cs : List Char} (hcs : Stops cs) :
    readOctet ((toString n).toList ++ cs) = some (n, cs) := by
  have hdigits : (toString n).toList = Nat.toDigits 10 n := Nat.toList_repr
  have hshape := toDigits_octet ⟨n, hn⟩
  simp only [← hdigits] at hshape
  unfold readOctet
  simp only [takeWhile_toString n hcs, dropWhile_toString n hcs, ofDigitChars_toString]
  rw [if_neg hshape, if_pos (by omega)]

def parseDotted (s : String) : Option (BitVec 32) := readDotted s.toList

theorem stops_dot (cs : List Char) : Stops ('.' :: cs) := stops_cons rfl cs

theorem parseDotted_dotted (ip : BitVec 32) : parseDotted (dotted ip) = some ip := by
  have hlt : ∀ i : Nat, (ip.toNat >>> (8 * (3 - i))) % 256 < 256 := fun i =>
    Nat.mod_lt _ (by decide)
  have hlist : (dotted ip).toList =
      (toString ((ip.toNat >>> (8 * (3 - 0))) % 256)).toList ++
        ('.' :: ((toString ((ip.toNat >>> (8 * (3 - 1))) % 256)).toList ++
          ('.' :: ((toString ((ip.toNat >>> (8 * (3 - 2))) % 256)).toList ++
            ('.' :: ((toString ((ip.toNat >>> (8 * (3 - 3))) % 256)).toList ++ [])))))) := by
    unfold dotted
    simp only [String.toList_append, List.append_assoc, List.append_nil]
    rfl
  unfold parseDotted readDotted
  rw [hlist, readOctet_toString (hlt 0) (stops_dot _)]
  simp only [Option.bind_eq_bind, Option.bind_some, readDotOctet,
    readOctet_toString (hlt 1) (stops_dot _), readOctet_toString (hlt 2) (stops_dot _),
    readOctet_toString (hlt 3) stops_nil, if_true, Option.some.injEq]
  have hip := ip.isLt
  refine BitVec.eq_of_toNat_eq ?_
  rw [BitVec.toNat_ofNat]
  simp only [Nat.shiftRight_eq_div_pow]
  omega

/-- A digit by its value. -/
def digitChar (k : Fin 10) : Char := Char.ofNat (48 + k.val)

theorem exists_digitChar {c : Char} (h : c.isDigit = true) : ∃ k : Fin 10, c = digitChar k := by
  have hbounds : 48 ≤ c.toNat ∧ c.toNat ≤ 57 := Char.isDigit_iff_toNat.mp h
  refine ⟨⟨c.toNat - 48, by omega⟩, ?_⟩
  have hvalue : 48 + (c.toNat - 48) = c.toNat := by omega
  rw [digitChar, hvalue, Char.ofNat_toNat]

theorem toDigits_one : ∀ a : Fin 10,
    Nat.toDigits 10 (Nat.ofDigitChars 10 [digitChar a] 0) = [digitChar a] := by
  decide

theorem digitChar_eq : ∀ k : Fin 10, digitChar k = Nat.digitChar k.val := by
  decide

/-- One more digit. -/
theorem toDigits_snoc {ds : List Char} (hpos : 0 < Nat.ofDigitChars 10 ds 0)
    (h : Nat.toDigits 10 (Nat.ofDigitChars 10 ds 0) = ds) (k : Fin 10) :
    Nat.toDigits 10 (Nat.ofDigitChars 10 (ds ++ [digitChar k]) 0) = ds ++ [digitChar k] := by
  have hvalue : Nat.ofDigitChars 10 (ds ++ [digitChar k]) 0 =
      10 * Nat.ofDigitChars 10 ds 0 + k.val := by
    rw [Nat.ofDigitChars_append, digitChar_eq, Nat.ofDigitChars_cons_digitChar_of_lt_ten k.isLt,
      Nat.ofDigitChars_nil]
  rw [hvalue, ← Nat.toDigits_append_toDigits (by decide) hpos k.isLt, h,
    Nat.toDigits_of_lt_base k.isLt, digitChar_eq]

theorem toDigits_two (a b : Fin 10) (ha : digitChar a ≠ '0') :
    Nat.toDigits 10 (Nat.ofDigitChars 10 [digitChar a, digitChar b] 0) =
      [digitChar a, digitChar b] := by
  have hpos : ∀ a : Fin 10, digitChar a ≠ '0' →
      0 < Nat.ofDigitChars 10 [digitChar a] 0 := by decide
  exact toDigits_snoc (hpos a ha) (toDigits_one a) b

theorem toDigits_three (a b c : Fin 10) (ha : digitChar a ≠ '0') :
    Nat.toDigits 10 (Nat.ofDigitChars 10 [digitChar a, digitChar b, digitChar c] 0) =
      [digitChar a, digitChar b, digitChar c] := by
  have htwo := toDigits_two a b ha
  refine @toDigits_snoc [digitChar a, digitChar b] (Nat.pos_of_ne_zero fun hzero => ?_) htwo c
  rw [hzero, Nat.toDigits_zero] at htwo
  cases congrArg List.length htwo

/-- A number is read from its own text only. -/
theorem eq_of_readOctet {cs rest : List Char} {n : Nat} (h : readOctet cs = some (n, rest)) :
    cs = (toString n).toList ++ rest ∧ n < 256 := by
  have hdigits : (toString n).toList = Nat.toDigits 10 n := Nat.toList_repr
  have hsplit : cs.takeWhile Char.isDigit ++ cs.dropWhile Char.isDigit = cs :=
    List.takeWhile_append_dropWhile
  have hall : ∀ c ∈ cs.takeWhile Char.isDigit, Char.isDigit c = true := fun c hc =>
    List.mem_takeWhile_imp hc
  unfold readOctet at h
  simp only at h
  split at h
  · cases h
  · rename_i hshape
    split at h
    · rename_i hvalue
      simp only [Option.some.injEq, Prod.mk.injEq] at h
      obtain ⟨rfl, rfl⟩ := h
      refine ⟨?_, by omega⟩
      rw [hdigits]
      generalize cs.takeWhile Char.isDigit = ds at hsplit hall hshape hvalue ⊢
      have htext : Nat.toDigits 10 (Nat.ofDigitChars 10 ds 0) = ds := by
        match ds, hall, hshape with
        | [], _, hshape =>
            exact absurd (Or.inl rfl) hshape
        | [a], hall, _ =>
            obtain ⟨k, rfl⟩ := exists_digitChar (hall a (by simp))
            exact toDigits_one k
        | [a, b], hall, hshape =>
            obtain ⟨k, rfl⟩ := exists_digitChar (hall a (by simp))
            obtain ⟨l, rfl⟩ := exists_digitChar (hall b (by simp))
            refine toDigits_two k l fun hzero => hshape (.inr (.inr ⟨?_, ?_⟩))
            · simp
            · rw [List.head?_cons, hzero]
        | [a, b, c], hall, hshape =>
            obtain ⟨k, rfl⟩ := exists_digitChar (hall a (by simp))
            obtain ⟨l, rfl⟩ := exists_digitChar (hall b (by simp))
            obtain ⟨m, rfl⟩ := exists_digitChar (hall c (by simp))
            refine toDigits_three k l m fun hzero => hshape (.inr (.inr ⟨?_, ?_⟩))
            · simp
            · rw [List.head?_cons, hzero]
        | _ :: _ :: _ :: _ :: _, _, hshape =>
            exact absurd (.inr (.inl (by simp))) hshape
      rw [htext, hsplit]
    · cases h

theorem eq_of_readDotOctet {cs rest : List Char} {n : Nat}
    (h : readDotOctet cs = some (n, rest)) :
    cs = '.' :: ((toString n).toList ++ rest) ∧ n < 256 := by
  unfold readDotOctet at h
  split at h
  · obtain ⟨hcs, hn⟩ := eq_of_readOctet h
    exact ⟨by rw [hcs], hn⟩
  · cases h

/-- Only the dotted form of an address is parsed. -/
theorem eq_dotted_of_readDotted {s : List Char} {ip : BitVec 32} (h : readDotted s = some ip) :
    s = (dotted ip).toList := by
  unfold readDotted at h
  simp only [Option.bind_eq_bind, Option.bind_eq_some_iff] at h
  obtain ⟨⟨a, cs⟩, ha, ⟨b, cs'⟩, hb, ⟨c, cs''⟩, hc, ⟨d, cs'''⟩, hd, hend⟩ := h
  simp only at hb hc hd hend
  split at hend
  · rename_i hnil
    simp only [Option.some.injEq] at hend
    obtain ⟨hs, ha⟩ := eq_of_readOctet ha
    obtain ⟨hcs, hb⟩ := eq_of_readDotOctet hb
    obtain ⟨hcs', hc⟩ := eq_of_readDotOctet hc
    obtain ⟨hcs'', hd⟩ := eq_of_readDotOctet hd
    have hip : ip.toNat = a * 16777216 + b * 65536 + c * 256 + d := by
      rw [← hend, BitVec.toNat_ofNat]
      omega
    have ha' : (ip.toNat >>> (8 * (3 - 0))) % 256 = a := by
      rw [Nat.shiftRight_eq_div_pow, hip]
      omega
    have hb' : (ip.toNat >>> (8 * (3 - 1))) % 256 = b := by
      rw [Nat.shiftRight_eq_div_pow, hip]
      omega
    have hc' : (ip.toNat >>> (8 * (3 - 2))) % 256 = c := by
      rw [Nat.shiftRight_eq_div_pow, hip]
      omega
    have hd' : (ip.toNat >>> (8 * (3 - 3))) % 256 = d := by
      rw [Nat.shiftRight_eq_div_pow, hip]
      omega
    unfold dotted
    simp only [ha', hb', hc', hd', String.toList_append]
    rw [hs, hcs, hcs', hcs'', hnil]
    simp
  · cases hend

/-- The text form of an `Ipv4Addr`. -/
def ipv4Form : TextForm (BitVec 32) where
  text := dotted
  parse := parseDotted
  parse_text := parseDotted_dotted

end Addresses

@[ext] structure DesiredPeer where
  publicKey : String
  vpnIp : BitVec 32
  enabled : Bool
  presharedKey : Option String
  persistentKeepalive : UInt16
  deriving DecidableEq, Repr

structure DesiredState where
  revision : UInt64
  serverPublicKey : String
  peers : List DesiredPeer
  deriving DecidableEq, Repr

structure AppliedState where
  state : DesiredState
  digest : String
  deriving DecidableEq, Repr

inductive Operation where
  | health
  | stateStatus
  | peerStats
  | validateState (state : DesiredState)
  | applyState (state : DesiredState)
  deriving DecidableEq, Repr

structure Request where
  version : UInt16
  token : String
  operation : Operation
  deriving DecidableEq, Repr

structure PeerStats where
  publicKey : String
  endpoint : Option String
  allowedIps : String
  latestHandshake : Int64
  rxBytes : UInt64
  txBytes : UInt64
  deriving DecidableEq, Repr

inductive Response where
  | health (version : UInt16) (interface : String) (interfaceGeneration : Option (BitVec 128))
      (peerCount : UInt64) (appliedRevision : Option UInt64) (appliedDigest : Option String)
  | stateStatus (version : UInt16) (appliedRevision : Option UInt64)
      (appliedDigest : Option String)
  | peerStats (version : UInt16) (interface : String) (interfaceGeneration : Option (BitVec 128))
      (interfaceRxBytes interfaceTxBytes : Option UInt64) (peers : List PeerStats)
  | validated (version : UInt16) (revision : UInt64) (digest : String)
  | applied (version : UInt16) (revision : UInt64) (digest : String)
  | error (version : UInt16) (code : String)
  deriving DecidableEq, Repr

/-- `Option<String>`. -/
def optionString : Codec (Option String) := Codec.ofString.option fun _ => Json.noConfusion

/-- `Option<u64>`. -/
def optionUInt64 : Codec (Option UInt64) := Codec.ofUInt64.option fun _ => Json.noConfusion

def ipv4 : Codec (BitVec 32) := .ofText ipv4Form

namespace DesiredPeer

def fields (p : DesiredPeer) : List (String × Json) :=
  [("public_key", Codec.ofString.encode p.publicKey),
    ("vpn_ip", ipv4.encode p.vpnIp),
    ("enabled", Codec.ofBool.encode p.enabled),
    ("preshared_key", optionString.encode p.presharedKey),
    ("persistent_keepalive", Codec.ofUInt16.encode p.persistentKeepalive)]

def names : List String :=
  ["public_key", "vpn_ip", "enabled", "preshared_key", "persistent_keepalive"]

def encode (p : DesiredPeer) : Json := .obj p.fields

def decode : Json → Option DesiredPeer
  | .obj fields => do
      guard (once names fields && known names fields)
      let publicKey ← Codec.ofString.required "public_key" fields
      let vpnIp ← ipv4.required "vpn_ip" fields
      let enabled ← Codec.ofBool.required "enabled" fields
      let presharedKey ← optionString.defaulted none "preshared_key" fields
      let persistentKeepalive ← Codec.ofUInt16.defaulted 0 "persistent_keepalive" fields
      pure { publicKey, vpnIp, enabled, presharedKey, persistentKeepalive }
  | _ => none

/-- The fields of a peer with a default. -/
inductive Default where
  | presharedKey
  | persistentKeepalive
  deriving DecidableEq, Repr

def Default.label : Default → String
  | .presharedKey => "preshared_key"
  | .persistentKeepalive => "persistent_keepalive"

def Default.reset : Default → DesiredPeer → DesiredPeer
  | .presharedKey, p => { p with presharedKey := none }
  | .persistentKeepalive, p => { p with persistentKeepalive := 0 }

def defaults : Defaults DesiredPeer Default where
  fields := fields
  label := Default.label
  reset := Default.reset
  label_injective i k h := by
    cases i <;> cases k <;> first | rfl | exact absurd h (by decide)
  reset_same i p := by cases i <;> rfl
  reset_keeps i k p h := by
    cases i <;> cases k <;> simp_all [Default.reset, DesiredPeer.ext_iff]
  fields_reset i p := by cases i <;> rfl

theorem decode_short {p : DesiredPeer} {j : Json} (h : defaults.Short p j) :
    decode j = some p := by
  obtain ⟨keep, rfl, hkeep⟩ := h
  have hpsk : keep "preshared_key" = false → p.presharedKey = none := fun hfalse =>
    (congrArg presharedKey (hkeep.reset .presharedKey hfalse)).symm
  have hkeepalive : keep "persistent_keepalive" = false → p.persistentKeepalive = 0 :=
    fun hfalse => (congrArg persistentKeepalive (hkeep.reset .persistentKeepalive hfalse)).symm
  have honce : once names p.fields = true := rfl
  have hknown : known names p.fields = true := rfl
  have hget1 : get "public_key" p.fields = some (Codec.ofString.encode p.publicKey) := rfl
  have hget2 : get "vpn_ip" p.fields = some (ipv4.encode p.vpnIp) := rfl
  have hget3 : get "enabled" p.fields = some (Codec.ofBool.encode p.enabled) := rfl
  have hget4 : get "preshared_key" p.fields = some (optionString.encode p.presharedKey) := rfl
  have hget5 : get "persistent_keepalive" p.fields =
    some (Codec.ofUInt16.encode p.persistentKeepalive) := rfl
  have hfield1 := required_filter hget1 (hkeep.required (by rintro (_ | _) <;> decide))
  have hfield2 := required_filter hget2 (hkeep.required (by rintro (_ | _) <;> decide))
  have hfield3 := required_filter hget3 (hkeep.required (by rintro (_ | _) <;> decide))
  have hfield4 := defaulted_filter hget4 hpsk
  have hfield5 := defaulted_filter hget5 hkeepalive
  simp only [decode, defaults, once_filter honce, known_filter hknown, hfield1, hfield2, hfield3,
    hfield4, hfield5]
  rfl

def codec : Codec DesiredPeer where
  encode := encode
  decode := decode
  decode_encode p := decode_short (defaults.short_obj p)

end DesiredPeer

namespace DesiredState

def fields (s : DesiredState) (peers : Json) : List (String × Json) :=
  [("revision", Codec.ofUInt64.encode s.revision),
    ("server_public_key", Codec.ofString.encode s.serverPublicKey),
    ("peers", peers)]

def names : List String := ["revision", "server_public_key", "peers"]

def encode (s : DesiredState) : Json :=
  .obj (s.fields ((Codec.list DesiredPeer.codec).encode s.peers))

def decode : Json → Option DesiredState
  | .obj fields => do
      guard (once names fields && known names fields)
      let revision ← Codec.ofUInt64.required "revision" fields
      let serverPublicKey ← Codec.ofString.required "server_public_key" fields
      let peers ← (Codec.list DesiredPeer.codec).required "peers" fields
      pure { revision, serverPublicKey, peers }
  | _ => none

/-- The encoding, less some defaulted fields of peers that have their default. -/
def Short (s : DesiredState) (j : Json) : Prop :=
  ∃ items, j = .obj (s.fields (.arr items)) ∧
    List.Forall₂ DesiredPeer.defaults.Short s.peers items

theorem short_encode (s : DesiredState) : s.Short s.encode :=
  ⟨_, rfl, Codec.forall₂_map_encode DesiredPeer.defaults.short_obj s.peers⟩

theorem decode_short {s : DesiredState} {j : Json} (h : s.Short j) : decode j = some s := by
  obtain ⟨items, rfl, hitems⟩ := h
  have hpeers : (Codec.list DesiredPeer.codec).required "peers" (s.fields (.arr items)) =
      some s.peers := by
    rw [required_of_get (j := .arr items) rfl]
    exact Codec.decodeItems_forall₂ (hitems.imp fun _ _ => DesiredPeer.decode_short)
  have hrevision : Codec.ofUInt64.required "revision" (s.fields (.arr items)) =
      some s.revision := by
    rw [required_of_get (j := Codec.ofUInt64.encode s.revision) rfl, Codec.decode_encode]
  have hserver : Codec.ofString.required "server_public_key" (s.fields (.arr items)) =
      some s.serverPublicKey := rfl
  have hguard : (once names (s.fields (.arr items)) && known names (s.fields (.arr items))) =
      true := rfl
  simp only [decode, hguard, hrevision, hserver, hpeers]
  rfl

/-- A defaulted field of one of the peers. -/
abbrev Default := Nat × DesiredPeer.Default

def Default.place (d : Default) : List Step × String :=
  ([.field "peers", .index d.1], d.2.label)

def Default.reset (d : Default) (s : DesiredState) : DesiredState :=
  { s with peers := s.peers.modify d.1 d.2.reset }

theorem short_remove (d : Default) {s : DesiredState} {j : Json} (h : s.Short j) :
    (d.reset s).Short (modifyAt d.place.1 (remove d.place.2) j) := by
  obtain ⟨items, rfl, hitems⟩ := h
  refine ⟨items.modify d.1 (remove d.2.label), ?_, ?_⟩
  · simp [Default.place, modifyAt, fields, Default.reset]
  · exact forall₂_modify (fun _ _ => DesiredPeer.defaults.short_remove d.2) hitems d.1

def codec : Codec DesiredState where
  encode := encode
  decode := decode
  decode_encode s := decode_short s.short_encode

end DesiredState

namespace AppliedState

def fields (a : AppliedState) (state : Json) : List (String × Json) :=
  [("state", state), ("digest", Codec.ofString.encode a.digest)]

def names : List String := ["state", "digest"]

def encode (a : AppliedState) : Json := .obj (a.fields a.state.encode)

def decode : Json → Option AppliedState
  | .obj fields => do
      guard (once names fields && known names fields)
      let state ← DesiredState.codec.required "state" fields
      let digest ← Codec.ofString.required "digest" fields
      pure { state, digest }
  | _ => none

def Short (a : AppliedState) (j : Json) : Prop :=
  ∃ state, j = .obj (a.fields state) ∧ a.state.Short state

theorem short_encode (a : AppliedState) : a.Short a.encode :=
  ⟨_, rfl, a.state.short_encode⟩

theorem decode_short {a : AppliedState} {j : Json} (h : a.Short j) : decode j = some a := by
  obtain ⟨state, rfl, hstate⟩ := h
  have hread : DesiredState.codec.required "state" (a.fields state) = some a.state :=
    DesiredState.decode_short hstate
  have hdigest : Codec.ofString.required "digest" (a.fields state) = some a.digest := rfl
  have hguard : (once names (a.fields state) && known names (a.fields state)) = true := rfl
  simp only [decode, hguard, hread, hdigest]
  rfl

def place (d : DesiredState.Default) : List Step × String :=
  (.field "state" :: d.place.1, d.place.2)

def reset (d : DesiredState.Default) (a : AppliedState) : AppliedState :=
  { a with state := d.reset a.state }

theorem short_remove (d : DesiredState.Default) {a : AppliedState} {j : Json} (h : a.Short j) :
    (a.reset d).Short (modifyAt (place d).1 (remove (place d).2) j) := by
  obtain ⟨state, rfl, hstate⟩ := h
  refine ⟨modifyAt d.place.1 (remove d.place.2) state, ?_, DesiredState.short_remove d hstate⟩
  simp [place, modifyAt, fields, reset]

end AppliedState

namespace Operation

/-- The tag. -/
def name : Operation → String
  | health => "health"
  | stateStatus => "state_status"
  | peerStats => "peer_stats"
  | validateState _ => "validate_state"
  | applyState _ => "apply_state"

/-- The state of an operation. -/
def state? : Operation → Option DesiredState
  | validateState state => some state
  | applyState state => some state
  | _ => none

def fields (o : Operation) (state : Option Json) : List (String × Json) :=
  ("name", .str o.name) :: state.toList.map fun j => ("state", j)

def encode (o : Operation) : Json := .obj (o.fields (o.state?.map DesiredState.encode))

/-- Keys beside the tag and the fields of the variant are ignored. -/
def decode : Json → Option Operation
  | .obj fields => do
      guard (once ["name"] fields)
      match ← Codec.ofString.required "name" fields with
      | "health" => pure health
      | "state_status" => pure stateStatus
      | "peer_stats" => pure peerStats
      | "validate_state" =>
          guard (once ["state"] fields)
          pure (validateState (← DesiredState.codec.required "state" fields))
      | "apply_state" =>
          guard (once ["state"] fields)
          pure (applyState (← DesiredState.codec.required "state" fields))
      | _ => none
  | _ => none

def Short (o : Operation) (j : Json) : Prop :=
  ∃ state : Option Json, j = .obj (o.fields state) ∧ Option.Rel DesiredState.Short o.state? state

theorem short_encode (o : Operation) : o.Short o.encode := by
  refine ⟨_, rfl, ?_⟩
  cases o.state? with
  | none =>
      exact .none
  | some s =>
      exact .some s.short_encode

theorem decode_short {o : Operation} {j : Json} (h : o.Short j) : decode j = some o := by
  obtain ⟨state, rfl, hstate⟩ := h
  cases o with
  | health =>
      cases hstate
      rfl
  | stateStatus =>
      cases hstate
      rfl
  | peerStats =>
      cases hstate
      rfl
  | validateState s =>
      cases hstate with
      | some hstate =>
          rename_i j
          have hread : DesiredState.codec.required "state" ((validateState s).fields (some j)) =
              some s := DesiredState.decode_short hstate
          have htag : Codec.ofString.required "name" ((validateState s).fields (some j)) =
              some "validate_state" := rfl
          have hguard : once ["name"] ((validateState s).fields (some j)) = true := rfl
          have hguard' : once ["state"] ((validateState s).fields (some j)) = true := rfl
          simp only [decode, hguard, htag, hguard', hread]
          rfl
  | applyState s =>
      cases hstate with
      | some hstate =>
          rename_i j
          have hread : DesiredState.codec.required "state" ((applyState s).fields (some j)) =
              some s := DesiredState.decode_short hstate
          have htag : Codec.ofString.required "name" ((applyState s).fields (some j)) =
              some "apply_state" := rfl
          have hguard : once ["name"] ((applyState s).fields (some j)) = true := rfl
          have hguard' : once ["state"] ((applyState s).fields (some j)) = true := rfl
          simp only [decode, hguard, htag, hguard', hread]
          rfl

def reset (d : DesiredState.Default) : Operation → Operation
  | validateState state => validateState (d.reset state)
  | applyState state => applyState (d.reset state)
  | o => o

def place (d : DesiredState.Default) : List Step × String :=
  (.field "state" :: d.place.1, d.place.2)

theorem short_remove (d : DesiredState.Default) {o : Operation} {j : Json} (h : o.Short j) :
    (o.reset d).Short (modifyAt (place d).1 (remove (place d).2) j) := by
  obtain ⟨state, rfl, hstate⟩ := h
  refine ⟨state.map (modifyAt d.place.1 (remove d.place.2)), ?_, ?_⟩
  · cases o <;> cases state <;> simp [place, modifyAt, fields, reset, name]
  · cases o <;> cases hstate
    all_goals first
      | exact .none
      | exact .some (DesiredState.short_remove d ‹_›)

end Operation

namespace Request

def fields (r : Request) (operation : Json) : List (String × Json) :=
  [("version", Codec.ofUInt16.encode r.version), ("token", Codec.ofString.encode r.token),
    ("operation", operation)]

def names : List String := ["version", "token", "operation"]

def encode (r : Request) : Json := .obj (r.fields r.operation.encode)

def decode : Json → Option Request
  | .obj fields => do
      guard (once names fields)
      let version ← Codec.ofUInt16.required "version" fields
      let token ← Codec.ofString.required "token" fields
      let operation ← (get "operation" fields).bind Operation.decode
      pure { version, token, operation }
  | _ => none

def Short (r : Request) (j : Json) : Prop :=
  ∃ operation, j = .obj (r.fields operation) ∧ r.operation.Short operation

theorem short_encode (r : Request) : r.Short r.encode :=
  ⟨_, rfl, r.operation.short_encode⟩

theorem decode_short {r : Request} {j : Json} (h : r.Short j) : decode j = some r := by
  obtain ⟨operation, rfl, hoperation⟩ := h
  have hversion : Codec.ofUInt16.required "version" (r.fields operation) = some r.version := by
    rw [required_of_get (j := Codec.ofUInt16.encode r.version) rfl, Codec.decode_encode]
  have htoken : Codec.ofString.required "token" (r.fields operation) = some r.token := rfl
  have hread : (get "operation" (r.fields operation)).bind Operation.decode =
      some r.operation := Operation.decode_short hoperation
  have hguard : once names (r.fields operation) = true := rfl
  simp only [decode, hguard, hversion, htoken, hread]
  rfl

def place (d : DesiredState.Default) : List Step × String :=
  (.field "operation" :: (Operation.place d).1, (Operation.place d).2)

def reset (d : DesiredState.Default) (r : Request) : Request :=
  { r with operation := r.operation.reset d }

theorem short_remove (d : DesiredState.Default) {r : Request} {j : Json} (h : r.Short j) :
    (r.reset d).Short (modifyAt (place d).1 (remove (place d).2) j) := by
  obtain ⟨operation, rfl, hoperation⟩ := h
  refine ⟨modifyAt (Operation.place d).1 (remove (Operation.place d).2) operation, ?_,
    Operation.short_remove d hoperation⟩
  simp [place, modifyAt, fields, reset]

end Request

namespace PeerStats

def fields (p : PeerStats) : List (String × Json) :=
  [("public_key", Codec.ofString.encode p.publicKey),
    ("endpoint", optionString.encode p.endpoint),
    ("allowed_ips", Codec.ofString.encode p.allowedIps),
    ("latest_handshake", Codec.ofInt64.encode p.latestHandshake),
    ("rx_bytes", Codec.ofUInt64.encode p.rxBytes),
    ("tx_bytes", Codec.ofUInt64.encode p.txBytes)]

def names : List String :=
  ["public_key", "endpoint", "allowed_ips", "latest_handshake", "rx_bytes", "tx_bytes"]

def encode (p : PeerStats) : Json := .obj p.fields

/-- A missing `Option` is `None`, also without a default. -/
def decode : Json → Option PeerStats
  | .obj fields => do
      guard (once names fields)
      let publicKey ← Codec.ofString.required "public_key" fields
      let endpoint ← optionString.defaulted none "endpoint" fields
      let allowedIps ← Codec.ofString.required "allowed_ips" fields
      let latestHandshake ← Codec.ofInt64.required "latest_handshake" fields
      let rxBytes ← Codec.ofUInt64.required "rx_bytes" fields
      let txBytes ← Codec.ofUInt64.required "tx_bytes" fields
      pure { publicKey, endpoint, allowedIps, latestHandshake, rxBytes, txBytes }
  | _ => none

theorem decode_encode (p : PeerStats) : decode p.encode = some p := by
  have hkey : Codec.ofString.required "public_key" p.fields = some p.publicKey := rfl
  have hendpoint : optionString.defaulted none "endpoint" p.fields = some p.endpoint := by
    rw [defaulted_of_get (j := optionString.encode p.endpoint) rfl, Codec.decode_encode]
  have hips : Codec.ofString.required "allowed_ips" p.fields = some p.allowedIps := rfl
  have hhandshake : Codec.ofInt64.required "latest_handshake" p.fields =
      some p.latestHandshake := by
    rw [required_of_get (j := Codec.ofInt64.encode p.latestHandshake) rfl, Codec.decode_encode]
  have hrx : Codec.ofUInt64.required "rx_bytes" p.fields = some p.rxBytes := by
    rw [required_of_get (j := Codec.ofUInt64.encode p.rxBytes) rfl, Codec.decode_encode]
  have htx : Codec.ofUInt64.required "tx_bytes" p.fields = some p.txBytes := by
    rw [required_of_get (j := Codec.ofUInt64.encode p.txBytes) rfl, Codec.decode_encode]
  have hguard : once names p.fields = true := rfl
  simp only [encode, decode, hguard, hkey, hendpoint, hips, hhandshake, hrx, htx]
  rfl

def codec : Codec PeerStats := ⟨encode, decode, decode_encode⟩

end PeerStats

namespace Response

/-- The tag. -/
def type : Response → String
  | health .. => "health"
  | stateStatus .. => "state_status"
  | peerStats .. => "peer_stats"
  | validated .. => "validated"
  | applied .. => "applied"
  | error .. => "error"

section Uuid

variable (uuid : TextForm (BitVec 128))

/-- `Option<Uuid>`. -/
def optionUuid : Codec (Option (BitVec 128)) := (Codec.ofText uuid).option fun _ => Json.noConfusion

/-- The fields of a variant. -/
def variantFields : Response → List (String × Json)
  | health version interface interfaceGeneration peerCount appliedRevision appliedDigest =>
      [("version", Codec.ofUInt16.encode version),
        ("interface", Codec.ofString.encode interface),
        ("interface_generation", (optionUuid uuid).encode interfaceGeneration),
        ("peer_count", Codec.ofUInt64.encode peerCount),
        ("applied_revision", optionUInt64.encode appliedRevision),
        ("applied_digest", optionString.encode appliedDigest)]
  | stateStatus version appliedRevision appliedDigest =>
      [("version", Codec.ofUInt16.encode version),
        ("applied_revision", optionUInt64.encode appliedRevision),
        ("applied_digest", optionString.encode appliedDigest)]
  | peerStats version interface interfaceGeneration interfaceRxBytes interfaceTxBytes peers =>
      [("version", Codec.ofUInt16.encode version),
        ("interface", Codec.ofString.encode interface),
        ("interface_generation", (optionUuid uuid).encode interfaceGeneration),
        ("interface_rx_bytes", optionUInt64.encode interfaceRxBytes),
        ("interface_tx_bytes", optionUInt64.encode interfaceTxBytes),
        ("peers", (Codec.list PeerStats.codec).encode peers)]
  | validated version revision digest =>
      [("version", Codec.ofUInt16.encode version),
        ("revision", Codec.ofUInt64.encode revision),
        ("digest", Codec.ofString.encode digest)]
  | applied version revision digest =>
      [("version", Codec.ofUInt16.encode version),
        ("revision", Codec.ofUInt64.encode revision),
        ("digest", Codec.ofString.encode digest)]
  | error version code =>
      [("version", Codec.ofUInt16.encode version),
        ("code", Codec.ofString.encode code)]

def fields (r : Response) : List (String × Json) := ("type", .str r.type) :: r.variantFields uuid

def encode (r : Response) : Json := .obj (r.fields uuid)

def decodeHealth (fields : List (String × Json)) : Option Response := do
  guard (once ["version", "interface", "interface_generation", "peer_count", "applied_revision",
    "applied_digest"] fields)
  let version ← Codec.ofUInt16.required "version" fields
  let interface ← Codec.ofString.required "interface" fields
  let interfaceGeneration ← (optionUuid uuid).defaulted none "interface_generation" fields
  let peerCount ← Codec.ofUInt64.required "peer_count" fields
  let appliedRevision ← optionUInt64.defaulted none "applied_revision" fields
  let appliedDigest ← optionString.defaulted none "applied_digest" fields
  pure (health version interface interfaceGeneration peerCount appliedRevision appliedDigest)

def decodeStateStatus (fields : List (String × Json)) : Option Response := do
  guard (once ["version", "applied_revision", "applied_digest"] fields)
  let version ← Codec.ofUInt16.required "version" fields
  let appliedRevision ← optionUInt64.defaulted none "applied_revision" fields
  let appliedDigest ← optionString.defaulted none "applied_digest" fields
  pure (stateStatus version appliedRevision appliedDigest)

def decodePeerStats (fields : List (String × Json)) : Option Response := do
  guard (once ["version", "interface", "interface_generation", "interface_rx_bytes",
    "interface_tx_bytes", "peers"] fields)
  let version ← Codec.ofUInt16.required "version" fields
  let interface ← Codec.ofString.required "interface" fields
  let interfaceGeneration ← (optionUuid uuid).defaulted none "interface_generation" fields
  let interfaceRxBytes ← optionUInt64.defaulted none "interface_rx_bytes" fields
  let interfaceTxBytes ← optionUInt64.defaulted none "interface_tx_bytes" fields
  let peers ← (Codec.list PeerStats.codec).required "peers" fields
  pure (peerStats version interface interfaceGeneration interfaceRxBytes interfaceTxBytes peers)

/-- `Validated` and `Applied` have the same fields. -/
def decodeOutcome (make : UInt16 → UInt64 → String → Response) (fields : List (String × Json)) :
    Option Response := do
  guard (once ["version", "revision", "digest"] fields)
  let version ← Codec.ofUInt16.required "version" fields
  let revision ← Codec.ofUInt64.required "revision" fields
  let digest ← Codec.ofString.required "digest" fields
  pure (make version revision digest)

def decodeError (fields : List (String × Json)) : Option Response := do
  guard (once ["version", "code"] fields)
  let version ← Codec.ofUInt16.required "version" fields
  let code ← Codec.ofString.required "code" fields
  pure (error version code)

def decode : Json → Option Response
  | .obj fields => do
      guard (once ["type"] fields)
      match ← Codec.ofString.required "type" fields with
      | "health" => decodeHealth uuid fields
      | "state_status" => decodeStateStatus fields
      | "peer_stats" => decodePeerStats uuid fields
      | "validated" => decodeOutcome validated fields
      | "applied" => decodeOutcome applied fields
      | "error" => decodeError fields
      | _ => none
  | _ => none

end Uuid

/-- The fields of responses with a default. -/
inductive Default where
  | appliedRevision
  | appliedDigest
  | interfaceRxBytes
  | interfaceTxBytes
  deriving DecidableEq, Repr

def Default.label : Default → String
  | .appliedRevision => "applied_revision"
  | .appliedDigest => "applied_digest"
  | .interfaceRxBytes => "interface_rx_bytes"
  | .interfaceTxBytes => "interface_tx_bytes"

/-- A response without the field stays as it is. -/
def Default.reset : Default → Response → Response
  | .appliedRevision, health version interface generation count _ digest =>
      health version interface generation count none digest
  | .appliedRevision, stateStatus version _ digest => stateStatus version none digest
  | .appliedDigest, health version interface generation count revision _ =>
      health version interface generation count revision none
  | .appliedDigest, stateStatus version revision _ => stateStatus version revision none
  | .interfaceRxBytes, peerStats version interface generation _ tx peers =>
      peerStats version interface generation none tx peers
  | .interfaceTxBytes, peerStats version interface generation rx _ peers =>
      peerStats version interface generation rx none peers
  | _, r => r

section Uuid

variable (uuid : TextForm (BitVec 128))

def defaults : Defaults Response Default where
  fields := fields uuid
  label := Default.label
  reset := Default.reset
  label_injective i k h := by
    cases i <;> cases k <;> first | rfl | exact absurd h (by decide)
  reset_same i r := by cases i <;> cases r <;> rfl
  reset_keeps i k r h := by
    cases i <;> cases k <;> cases r <;> simp_all [Default.reset]
  fields_reset i r := by cases i <;> cases r <;> rfl

variable {uuid} {keep : String → Bool}

theorem decodeHealth_filter {version : UInt16} {interface : String}
    {generation : Option (BitVec 128)} {count : UInt64} {revision : Option UInt64}
    {digest : Option String}
    (h : (defaults uuid).Covers keep (health version interface generation count revision digest)) :
    decodeHealth uuid (((health version interface generation count revision digest).fields
      uuid).filter fun entry => keep entry.1) =
        some (health version interface generation count revision digest) := by
  have hrevision : keep "applied_revision" = false → revision = none := by
    intro hfalse
    have hreset := h.reset .appliedRevision hfalse
    injection hreset with _ _ _ _ hnone
    exact hnone.symm
  have hdigest : keep "applied_digest" = false → digest = none := by
    intro hfalse
    have hreset := h.reset .appliedDigest hfalse
    injection hreset with _ _ _ _ _ hnone
    exact hnone.symm
  have hplain : ∀ name, (∀ d : Default, d.label ≠ name) → keep name = true := fun _ => h.required
  unfold decodeHealth
  rw [once_filter rfl,
    required_filter (c := Codec.ofUInt16) (a := version) rfl
      (hplain "version" (by rintro (_ | _) <;> decide)),
    required_filter (c := Codec.ofString) (a := interface) rfl
      (hplain "interface" (by rintro (_ | _) <;> decide)),
    defaulted_filter (c := optionUuid uuid) (a := generation) rfl
      (by rw [hplain "interface_generation" (by rintro (_ | _) <;> decide)]; exact nofun),
    required_filter (c := Codec.ofUInt64) (a := count) rfl
      (hplain "peer_count" (by rintro (_ | _) <;> decide)),
    defaulted_filter (c := optionUInt64) (a := revision) rfl hrevision,
    defaulted_filter (c := optionString) (a := digest) rfl hdigest]
  rfl

theorem decodeStateStatus_filter {version : UInt16} {revision : Option UInt64}
    {digest : Option String}
    (h : (defaults uuid).Covers keep (stateStatus version revision digest)) :
    decodeStateStatus (((stateStatus version revision digest).fields
      uuid).filter fun entry => keep entry.1) = some (stateStatus version revision digest) := by
  have hrevision : keep "applied_revision" = false → revision = none := by
    intro hfalse
    have hreset := h.reset .appliedRevision hfalse
    injection hreset with _ hnone
    exact hnone.symm
  have hdigest : keep "applied_digest" = false → digest = none := by
    intro hfalse
    have hreset := h.reset .appliedDigest hfalse
    injection hreset with _ _ hnone
    exact hnone.symm
  have hplain : ∀ name, (∀ d : Default, d.label ≠ name) → keep name = true := fun _ => h.required
  unfold decodeStateStatus
  rw [once_filter rfl,
    required_filter (c := Codec.ofUInt16) (a := version) rfl
      (hplain "version" (by rintro (_ | _) <;> decide)),
    defaulted_filter (c := optionUInt64) (a := revision) rfl hrevision,
    defaulted_filter (c := optionString) (a := digest) rfl hdigest]
  rfl

theorem decodePeerStats_filter {version : UInt16} {interface : String}
    {generation : Option (BitVec 128)} {rx tx : Option UInt64} {peers : List PeerStats}
    (h : (defaults uuid).Covers keep (peerStats version interface generation rx tx peers)) :
    decodePeerStats uuid (((peerStats version interface generation rx tx peers).fields
      uuid).filter fun entry => keep entry.1) =
        some (peerStats version interface generation rx tx peers) := by
  have hrx : keep "interface_rx_bytes" = false → rx = none := by
    intro hfalse
    have hreset := h.reset .interfaceRxBytes hfalse
    injection hreset with _ _ _ hnone
    exact hnone.symm
  have htx : keep "interface_tx_bytes" = false → tx = none := by
    intro hfalse
    have hreset := h.reset .interfaceTxBytes hfalse
    injection hreset with _ _ _ _ hnone
    exact hnone.symm
  have hplain : ∀ name, (∀ d : Default, d.label ≠ name) → keep name = true := fun _ => h.required
  unfold decodePeerStats
  rw [once_filter rfl,
    required_filter (c := Codec.ofUInt16) (a := version) rfl
      (hplain "version" (by rintro (_ | _) <;> decide)),
    required_filter (c := Codec.ofString) (a := interface) rfl
      (hplain "interface" (by rintro (_ | _) <;> decide)),
    defaulted_filter (c := optionUuid uuid) (a := generation) rfl
      (by rw [hplain "interface_generation" (by rintro (_ | _) <;> decide)]; exact nofun),
    defaulted_filter (c := optionUInt64) (a := rx) rfl hrx,
    defaulted_filter (c := optionUInt64) (a := tx) rfl htx,
    required_filter (c := Codec.list PeerStats.codec) (a := peers) rfl
      (hplain "peers" (by rintro (_ | _) <;> decide))]
  rfl

theorem decodeOutcome_filter (make : UInt16 → UInt64 → String → Response) (tag : String)
    (version : UInt16) (revision : UInt64) (digest : String)
    (hplain : ∀ name, (∀ d : Default, d.label ≠ name) → keep name = true) :
    decodeOutcome make ([("type", .str tag), ("version", Codec.ofUInt16.encode version),
        ("revision", Codec.ofUInt64.encode revision),
        ("digest", Codec.ofString.encode digest)].filter fun entry => keep entry.1) =
      some (make version revision digest) := by
  unfold decodeOutcome
  rw [once_filter rfl,
    required_filter (c := Codec.ofUInt16) (a := version) rfl
      (hplain "version" (by rintro (_ | _) <;> decide)),
    required_filter (c := Codec.ofUInt64) (a := revision) rfl
      (hplain "revision" (by rintro (_ | _) <;> decide)),
    required_filter (c := Codec.ofString) (a := digest) rfl
      (hplain "digest" (by rintro (_ | _) <;> decide))]
  rfl

theorem decodeError_filter (version : UInt16) (code : String)
    (hplain : ∀ name, (∀ d : Default, d.label ≠ name) → keep name = true) :
    decodeError (((error version code).fields uuid).filter fun entry => keep entry.1) =
      some (error version code) := by
  unfold decodeError
  rw [once_filter rfl,
    required_filter (c := Codec.ofUInt16) (a := version) rfl
      (hplain "version" (by rintro (_ | _) <;> decide)),
    required_filter (c := Codec.ofString) (a := code) rfl
      (hplain "code" (by rintro (_ | _) <;> decide))]
  rfl

theorem decode_short {r : Response} {j : Json} (h : (defaults uuid).Short r j) :
    decode uuid j = some r := by
  obtain ⟨keep, rfl, hkeep⟩ := h
  have hplain : ∀ name, (∀ d : Default, d.label ≠ name) → keep name = true :=
    fun _ => hkeep.required
  have honce : once ["type"] ((r.fields uuid).filter fun entry => keep entry.1) = true := by
    refine once_filter ?_ _
    cases r <;> rfl
  have htag : Codec.ofString.required "type" ((r.fields uuid).filter fun entry => keep entry.1) =
      some r.type :=
    required_filter rfl (hplain "type" (by rintro (_ | _) <;> decide))
  simp only [decode, defaults, honce, htag]
  cases r with
  | health version interface generation count revision digest =>
      exact decodeHealth_filter hkeep
  | stateStatus version revision digest =>
      exact decodeStateStatus_filter hkeep
  | peerStats version interface generation rx tx peers =>
      exact decodePeerStats_filter hkeep
  | validated version revision digest =>
      exact decodeOutcome_filter validated "validated" version revision digest hplain
  | applied version revision digest =>
      exact decodeOutcome_filter applied "applied" version revision digest hplain
  | error version code =>
      exact decodeError_filter version code hplain

end Uuid

end Response

end Wire
end HostAgent
end ZeroVpn
