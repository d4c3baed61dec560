import AnyTls.Core.Engine
import AnyTls.Core.TextRoundTrip

/-! The exchange that starts a session: the client's settings, the server's answer, and
what both engines hold afterwards. -/
namespace AnyTls

namespace Engine

/-- The frames that a list of actions sends. -/
def sentFrames (actions : List ProtocolAction) : List Frame :=
  actions.filterMap fun
    | .sendFrame frame | .sendFrameSync frame => some frame
    | _ => none

/-- Frames given to the engine one by one; the actions of all of them. -/
def onFrames (md5 : Bytes → String) (isClient : Bool) (state : State) : List Frame → State × List ProtocolAction
  | [] => (state, [])
  | frame :: rest =>
    let (state, actions) := onFrame md5 state isClient frame
    let (state, later) := onFrames md5 isClient state rest
    (state, actions ++ later)

/-- Frames reach the other side: encoded, decoded and given to its engine. -/
def exchange (md5 : Bytes → String) (isClient : Bool) (state : State) (frames : List Frame) :
    State × List ProtocolAction :=
  onFrames md5 isClient state (Framing.decodeAll Frame.next (frames.flatMap Frame.toBytes)).1

theorem exchange_eq {md5 isClient state frames} (encodable : ∀ frame ∈ frames, frame.Encodable) :
    exchange md5 isClient state frames = onFrames md5 isClient state frames := by
  have decoded := Framing.decodeAll_encoded Frame.next_lawful
    (fun frame member => Frame.encodes (encodable frame member)) []
  rw [List.append_nil] at decoded
  rw [exchange, decoded]
  simp

end Engine

/-- Text of hexadecimal digits. -/
def Hexadecimal (text : String) : Prop :=
  ∀ char ∈ text.toList, char ∈ "0123456789abcdefABCDEF".toList

theorem Hexadecimal.plain {text} (hex : Hexadecimal text) :
    '\n' ∉ text.toList ∧ text.toList.getLast? ≠ some '\r' := by
  constructor
  · intro member
    exact absurd (hex _ member) (by decide)
  · intro last
    exact absurd (hex _ (List.mem_of_getLast? last)) (by decide)

section
variable {md5 : Bytes → String} {iterate : StringMap.Order}
variable {client server : PaddingFactory} {name : String}

/-- The first frame of a client. -/
def settingsFrame (iterate : StringMap.Order) (client : PaddingFactory)
    (name : String) : Frame :=
  Frame.withData .settings 0 (StringMap.toBytes (iterate (Engine.clientSettings (State.new client) name)))

theorem clientSettings_entries (client name) :
    (Engine.clientSettings (State.new client) name).entries =
      [⟨"padding-md5", client.md5⟩, ⟨"client", name⟩, ⟨"v", "2"⟩] := rfl

/-- The server reads the client's settings as they were. -/
theorem settings_read (shuffles : ∀ map, (iterate map).Perm map.entries) (hex : Hexadecimal client.md5)
    (oneLine : '\n' ∉ name.toList) (unreturned : name.toList.getLast? ≠ some '\r') :
    (StringMap.fromBytes (settingsFrame iterate client name).data).lookup "padding-md5" = some client.md5 ∧
    Engine.version? (StringMap.fromBytes (settingsFrame iterate client name).data) = some 2 := by
  have keys : ∀ key ∈ ["padding-md5", "client", "v"], '=' ∉ key.toList ∧ '\n' ∉ key.toList := by decide
  have plain : ∀ entry ∈ (Engine.clientSettings (State.new client) name).entries, StringMap.PlainEntry entry := by
    intro entry member
    rw [clientSettings_entries] at member
    simp only [List.mem_cons, List.not_mem_nil, or_false] at member
    rcases member with rfl | rfl | rfl
    · exact ⟨keys _ (by simp), hex.plain⟩
    · exact ⟨keys _ (by simp), oneLine, unreturned⟩
    · exact ⟨keys _ (by simp), by decide⟩
  constructor
  · exact StringMap.lookup_fromBytes (shuffles _) plain "padding-md5"
  · have version : (StringMap.fromBytes (settingsFrame iterate client name).data).lookup "v" = some "2" :=
      StringMap.lookup_fromBytes (shuffles _) plain "v"
    rw [Engine.version?, version]
    rfl

/-- The server's answer: its scheme if the client has another one, and the version. -/
theorem onSettings_answer (server) {settings} (known : settings.lookup "padding-md5" = some client.md5)
    (version : Engine.version? settings = some 2) :
    (Engine.onSettings (State.new server) settings).1.peerVersion = 2 ∧
    Engine.sentFrames (Engine.onSettings (State.new server) settings).2 =
      (if client.md5 = server.md5 then []
        else [Frame.withData .updatePaddingScheme 0 server.rawScheme]) ++ [Engine.serverSettings 2] := by
  have enough : (2 : UInt8) ≥ MIN_PROTOCOL_VERSION := by decide
  simp only [Engine.onSettings, known, version, enough, if_true, Option.some.injEq, State.new]
  refine ⟨trivial, ?_⟩
  split_ifs
  · rfl
  · rfl

theorem serverSettings_read (md5 : Bytes → String) (state : State) :
    Engine.onFrame md5 state true (Engine.serverSettings 2) = ({ state with peerVersion := 2 }, []) := by
  have version : Engine.version? (StringMap.fromBytes (Engine.serverSettings 2).data) = some 2 := by decide +kernel
  have filled : (Engine.serverSettings 2).data.isEmpty = false := by decide +kernel
  rw [Engine.onFrame]
  simp only [Engine.serverSettings, Frame.withData] at version filled ⊢
  simp only [version, filled, Bool.not_false, Bool.and_self, if_true]

/-- The client takes over the scheme it is sent, if a factory can be made from it. -/
theorem updateScheme_read {raw} (made : PaddingFactory.new md5 raw = some server) (state : State) :
    Engine.onFrame md5 state true (Frame.withData .updatePaddingScheme 0 raw) =
      ({ state with padding := server }, []) := by
  have filled : raw.isEmpty = false := by simpa using PaddingFactory.new_ne_nil made
  simp only [Engine.onFrame, Frame.withData, filled, made, Bool.not_false, Bool.and_self, if_true]

/-- Handshake agreement. After the client's settings and the server's answer, both sides
hold the same protocol version, and the client has the server's padding scheme, unless
both schemes had the same digest: then none is sent and the client keeps its own. -/
theorem handshake_agreement (hex : ∀ data, Hexadecimal (md5 data))
    (shuffles : ∀ map, (iterate map).Perm map.entries) {clientRaw serverRaw : Bytes}
    (clientMade : PaddingFactory.new md5 clientRaw = some client)
    (serverMade : PaddingFactory.new md5 serverRaw = some server) (scheme : serverRaw.length ≤ 65535)
    (oneLine : '\n' ∉ name.toList) (unreturned : name.toList.getLast? ≠ some '\r')
    (fits : (StringMap.toBytes (iterate (Engine.clientSettings (State.new client) name))).length ≤ 65535)
    {serverState clientState : State} {answer rest : List ProtocolAction}
    (asked : Engine.exchange md5 false (State.new server)
      (Engine.sentFrames (Engine.onSessionStart iterate (State.new client) true name)) = (serverState, answer))
    (answered : Engine.exchange md5 true (State.new client) (Engine.sentFrames answer) = (clientState, rest)) :
    clientState.peerVersion = serverState.peerVersion ∧ MIN_PROTOCOL_VERSION ≤ serverState.peerVersion ∧
    (client.md5 ≠ server.md5 →
      (clientState.padding.rawScheme, clientState.padding.stop, clientState.padding.md5) =
        (server.rawScheme, server.stop, server.md5)) ∧
    (client.md5 = server.md5 → (∀ frame ∈ Engine.sentFrames answer, frame.cmd ≠ .updatePaddingScheme) ∧
      clientState.padding = client) := by
  have digest : Hexadecimal client.md5 := (PaddingFactory.new_fields clientMade).2 ▸ hex clientRaw
  have raw := (PaddingFactory.new_fields serverMade).1
  obtain ⟨known, version⟩ := settings_read shuffles digest oneLine unreturned
  have sent : Engine.sentFrames (Engine.onSessionStart iterate (State.new client) true name) =
      [settingsFrame iterate client name] := rfl
  have encodable : ∀ frame ∈ [settingsFrame iterate client name], frame.Encodable := by
    intro frame member
    cases List.mem_singleton.mp member
    exact ⟨Nat.lt_succ_of_le fits, trivial⟩
  have filled : (settingsFrame iterate client name).data.isEmpty = false := by
    cases empty : (settingsFrame iterate client name).data with
    | nil =>
      rw [empty] at version
      cases version
    | cons byte rest => rfl
  have handled : Engine.exchange md5 false (State.new server) [settingsFrame iterate client name] =
      Engine.onSettings (State.new server) (StringMap.fromBytes (settingsFrame iterate client name).data) := by
    rw [Engine.exchange_eq encodable]
    simp only [Engine.onFrames, Engine.onFrame, settingsFrame, Frame.withData] at filled ⊢
    simp only [filled, Bool.not_false, Bool.and_self, if_true, List.append_nil]
  rw [sent, handled] at asked
  obtain ⟨agreed, frames⟩ := onSettings_answer server known version
  rw [asked] at agreed frames
  have small : (Engine.serverSettings 2).Encodable := ⟨by decide +kernel, trivial⟩
  have update : (Frame.withData .updatePaddingScheme 0 server.rawScheme).Encodable :=
    ⟨Nat.lt_succ_of_le (raw ▸ scheme), trivial⟩
  have accepted : MIN_PROTOCOL_VERSION ≤ serverState.peerVersion := by
    rw [agreed]
    decide
  by_cases same : client.md5 = server.md5
  · rw [if_pos same, List.nil_append] at frames
    rw [frames, Engine.exchange_eq (by simpa using small)] at answered
    simp only [Engine.onFrames, serverSettings_read] at answered
    cases answered
    refine ⟨agreed.symm, accepted, fun different => absurd same different, fun _ => ⟨?_, rfl⟩⟩
    intro frame member
    rw [frames] at member
    cases List.mem_singleton.mp member
    decide
  · rw [if_neg same, List.singleton_append] at frames
    rw [frames, Engine.exchange_eq (by simp [small, update])] at answered
    rw [← raw] at serverMade
    simp only [Engine.onFrames, updateScheme_read serverMade, serverSettings_read] at answered
    cases answered
    exact ⟨agreed.symm, accepted, fun _ => rfl, fun equal => absurd equal same⟩

end

/-- A digest for short schemes: it tells them apart by their lengths. -/
def lengthDigest (data : Bytes) : String := if data.length = 6 then "6a" else "7b"

theorem lengthDigest_hexadecimal (data) : Hexadecimal (lengthDigest data) := by
  rw [lengthDigest]
  split_ifs
  · simp [Hexadecimal]
  · simp [Hexadecimal]

/-- A client with the scheme stop=8 and a server with stop=12: the client takes over
the server's. -/
theorem shorterScheme_replaced :
    ∃ client server : PaddingFactory, ∃ asked answered : State × List ProtocolAction,
      PaddingFactory.new lengthDigest (asBytes "stop=8") = some client ∧
      PaddingFactory.new lengthDigest (asBytes "stop=12") = some server ∧
      Engine.exchange lengthDigest false (State.new server)
        (Engine.sentFrames (Engine.onSessionStart AList.entries (State.new client) true "rs")) = asked ∧
      Engine.exchange lengthDigest true (State.new client) (Engine.sentFrames asked.2) = answered ∧
      answered.1.peerVersion = asked.1.peerVersion ∧ answered.1.padding.rawScheme = asBytes "stop=12" := by
  have accepted : (PaddingFactory.new lengthDigest (asBytes "stop=8")).isSome ∧
      (PaddingFactory.new lengthDigest (asBytes "stop=12")).isSome := by decide +kernel
  obtain ⟨client, clientMade⟩ := Option.isSome_iff_exists.mp accepted.1
  obtain ⟨server, serverMade⟩ := Option.isSome_iff_exists.mp accepted.2
  have digest := (PaddingFactory.new_fields clientMade).2
  obtain ⟨raw, digest'⟩ := PaddingFactory.new_fields serverMade
  rcases asked : Engine.exchange lengthDigest false (State.new server)
    (Engine.sentFrames (Engine.onSessionStart AList.entries (State.new client) true "rs")) with ⟨serverState, answer⟩
  rcases answered : Engine.exchange lengthDigest true (State.new client) (Engine.sentFrames answer)
    with ⟨clientState, rest⟩
  refine ⟨client, server, _, _, clientMade, serverMade, asked, answered, ?_⟩
  have short : (StringMap.toBytes (Engine.clientSettings (State.new client) "rs").entries).length ≤ 65535 := by
    rw [clientSettings_entries, digest]
    decide +kernel
  obtain ⟨version, -, scheme, -⟩ := handshake_agreement lengthDigest_hexadecimal (fun map => List.Perm.refl _)
    clientMade serverMade (by decide) (by decide) (by decide) short asked answered
  have different : client.md5 ≠ server.md5 := by
    rw [digest, digest']
    decide
  exact ⟨version, raw ▸ congrArg Prod.fst (scheme different)⟩

end AnyTls
