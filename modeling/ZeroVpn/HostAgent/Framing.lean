import ZeroVpn.HostAgent.WireText
import ZeroVpn.Library.JsonBytes
import Mathlib.Data.List.Perm.Subperm

/-!
# Frames on the socket

`query` of `crates/zerovpn-host-agent/src/lib.rs` and `handle` of `main.rs`, on
the bytes that they write and read, and `load_agent_token` of `secret_file.rs`.

A message is the JSON text of a request or a response, followed by a line feed.
Both sides read at most `MAX_MESSAGE_BYTES + 1` bytes and refuse a frame of more
than `MAX_MESSAGE_BYTES`.  `handle` counts the line feed before it writes;
`query` does not.
-/

namespace ZeroVpn

open Library Library.Json

namespace HostAgent

/-- `serde_json::to_vec` of the request of `query`. -/
def payload (token : String) (operation : Wire.Operation) : List UInt8 :=
  bytes (Wire.Request.encode ⟨UInt16.ofNat protocolVersion, token, operation⟩)

/-- What `query` writes, unless it refuses the request as too large. -/
def queryFrame (token : String) (operation : Wire.Operation) : Option (List UInt8) :=
  if maxMessageBytes < (payload token operation).length then none
  else some (payload token operation ++ [10])

/-- What `handle` writes for a response. -/
def handleFrame (uuid : TextForm (BitVec 128)) (response : Wire.Response) : Option (List UInt8) :=
  let frame := bytes (response.encode uuid) ++ [10]
  if frame.length ≤ maxMessageBytes then some frame else none

/-- The check of `query` on what it reads. -/
def responseAccepted (received : List UInt8) : Bool :=
  let response := frameOf received
  decide (response.length ≤ maxMessageBytes) && response.getLast? == some 10

section Frames

theorem readUntil_line {line : List UInt8} (h : (10 : UInt8) ∉ line) {limit : Nat}
    (hlimit : line.length < limit) : readUntil limit (line ++ [10]) = line ++ [10] := by
  induction line generalizing limit with
  | nil =>
      cases limit with
      | zero =>
          exact absurd hlimit (Nat.lt_irrefl 0)
      | succ limit =>
          rfl
  | cons b line ih =>
      cases limit with
      | zero =>
          exact absurd hlimit (Nat.not_lt_zero _)
      | succ limit =>
          have hb : b ≠ 10 := fun hb => h (hb ▸ List.mem_cons_self)
          have hline : (10 : UInt8) ∉ line := fun hmem => h (List.mem_cons_of_mem _ hmem)
          rw [List.cons_append, readUntil, if_neg hb, ih hline (Nat.lt_of_succ_lt_succ hlimit)]

/-- A message within the limit of the readers is read whole. -/
theorem frameOf_message (j : Json) (h : (bytes j).length ≤ maxMessageBytes) :
    frameOf (bytes j ++ [10]) = bytes j ++ [10] :=
  readUntil_line (newline_not_mem_bytes j) (Nat.lt_succ_of_le h)

/-- A frame is refused exactly by the check of its length and its end. -/
theorem dispatchFrame_invalid_iff {sha256 : Sha256} {parse : List UInt8 → Option Request}
    {tokens : AgentTokens} {received : List UInt8} :
    dispatchFrame sha256 parse tokens received true = .respond (errorResponse "invalid_frame") ↔
      responseAccepted received = false := by
  unfold dispatchFrame responseAccepted
  simp only [Bool.true_and]
  cases decide ((frameOf received).length ≤ maxMessageBytes) &&
      (frameOf received).getLast? == some 10 with
  | false =>
      exact ⟨fun _ => rfl, fun _ => rfl⟩
  | true =>
      refine ⟨fun h => ?_, fun h => Bool.noConfusion h⟩
      exfalso
      cases hparse : parse (frameOf received) with
      | none =>
          simp [hparse, errorResponse] at h
      | some request =>
          simp only [hparse, if_true, dispatchRequest] at h
          generalize tokenMatches sha256 _ request.token = known at h
          split at h
          · simp [errorResponse] at h
          · split at h
            · simp [errorResponse] at h
            · split at h
              · simp [errorResponse] at h
              · split at h <;> cases h

/-- A message with its line feed is accepted exactly within the limit. -/
theorem responseAccepted_message (j : Json) (h : (bytes j).length ≤ maxMessageBytes) :
    responseAccepted (bytes j ++ [10]) = true ↔ (bytes j).length + 1 ≤ maxMessageBytes := by
  unfold responseAccepted
  simp only [frameOf_message j h, List.getLast?_append, List.getLast?_singleton,
    List.length_append, List.length_singleton, Bool.and_eq_true, decide_eq_true_eq, beq_iff_eq,
    Option.some_or, and_true]

end Frames

/-- What one side writes passes the check of the other. -/
structure FramesAgree (sha256 : Sha256) (parse : List UInt8 → Option Request)
    (tokens : AgentTokens) (uuid : TextForm (BitVec 128)) (token : String)
    (operation : Wire.Operation) (response : Wire.Response) : Prop where
  request : ∀ frame, queryFrame token operation = some frame →
    dispatchFrame sha256 parse tokens frame true ≠ .respond (errorResponse "invalid_frame")
  response : ∀ frame, handleFrame uuid response = some frame → responseAccepted frame = true

/-- Client and agent agree exactly on the requests that are not as long as the limit. -/
theorem query_frames_agree_iff (sha256 : Sha256) (parse : List UInt8 → Option Request)
    (tokens : AgentTokens) (uuid : TextForm (BitVec 128)) (token : String)
    (operation : Wire.Operation) (response : Wire.Response) :
    FramesAgree sha256 parse tokens uuid token operation response ↔
      (payload token operation).length ≠ maxMessageBytes := by
  have hrequest : (payload token operation).length ≤ maxMessageBytes →
      (dispatchFrame sha256 parse tokens (payload token operation ++ [10]) true ≠
        .respond (errorResponse "invalid_frame") ↔
      (payload token operation).length + 1 ≤ maxMessageBytes) := by
    intro h
    rw [Ne, dispatchFrame_invalid_iff, Bool.not_eq_false]
    exact responseAccepted_message _ h
  constructor
  · intro h hlength
    have haccepted := h.request (payload token operation ++ [10])
      (by rw [queryFrame, if_neg (by omega)])
    have := (hrequest (by omega)).mp haccepted
    omega
  · intro h
    refine ⟨fun frame hframe => ?_, fun frame hframe => ?_⟩
    · unfold queryFrame at hframe
      split at hframe
      · cases hframe
      · cases hframe
        exact (hrequest (by omega)).mpr (by omega)
    · unfold handleFrame at hframe
      simp only [List.length_append, List.length_singleton] at hframe
      split at hframe
      · rename_i hfits
        cases hframe
        exact (responseAccepted_message _ (by omega)).mpr hfits
      · cases hframe

/-- The request for the health of the agent has 54 bytes beside its token. -/
theorem length_payload_health (n : Nat) :
    (payload (String.ofList (List.replicate n 'a')) .health).length = n + 54 := by
  have htoken : (utf8 ((List.replicate n 'a').flatMap escape)).length = n := by
    have ha : (utf8 (escape 'a')).length = 1 := by decide
    induction n with
    | zero =>
        rfl
    | succ n ih =>
        rw [List.replicate_succ, List.flatMap_cons, length_utf8_append, ha, ih, Nat.add_comm]
  have hversion : (utf8 (toString ((UInt16.ofNat protocolVersion).toNat : Int)).toList).length =
      1 := by
    decide
  have hnames : (utf8 ("version".toList.flatMap escape)).length = 7 ∧
      (utf8 ("token".toList.flatMap escape)).length = 5 ∧
      (utf8 ("operation".toList.flatMap escape)).length = 9 ∧
      (utf8 ("name".toList.flatMap escape)).length = 4 ∧
      (utf8 ("health".toList.flatMap escape)).length = 6 := by
    decide
  have hmarks : '"'.utf8Size = 1 ∧ ':'.utf8Size = 1 ∧ ','.utf8Size = 1 ∧ '\x7b'.utf8Size = 1 ∧
      '\x7d'.utf8Size = 1 ∧ (utf8 []).length = 0 := by
    decide
  simp only [payload, bytes, Wire.Request.encode, Wire.Request.fields, Wire.Operation.encode,
    Wire.Operation.fields, Wire.Operation.state?, Option.map_none, Option.toList_none,
    List.map_nil, List.map_cons, write_obj, write_num, write_str, writeFields_eq, writeField_eq,
    List.intercalate, List.intersperse, List.flatten_cons, List.flatten_nil, Codec.ofUInt16, Codec.ofInt, Codec.ofString,
    Wire.Operation.name, quote, length_utf8_append, length_utf8_cons, String.toList_ofList, htoken,
    hversion, hnames, hmarks]
  omega

/-- A request of exactly `MAX_MESSAGE_BYTES` bytes is sent and refused. -/
theorem query_frame_at_limit_refused :
    ∃ frame, queryFrame (String.ofList (List.replicate 1048522 'a')) .health = some frame ∧
      dispatchFrame shortSha256 (fun _ => none) testTokens frame true =
        .respond (errorResponse "invalid_frame") := by
  have hlength := length_payload_health 1048522
  refine ⟨_, if_neg (by rw [hlength]; decide), dispatchFrame_invalid_iff.mpr ?_⟩
  rw [← Bool.not_eq_true, payload, responseAccepted_message _ (Nat.le_of_eq hlength)]
  exact fun h => absurd (hlength ▸ h) (by decide)

end HostAgent
end ZeroVpn
