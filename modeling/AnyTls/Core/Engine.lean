import AnyTls.Core.Io
import AnyTls.Core.Padding

/-! The protocol engine of `core/engine.rs`, its state (`core/state.rs`) and its
actions (`core/action.rs`). -/
namespace AnyTls

def PROTOCOL_VERSION : UInt8 := 2
def MIN_PROTOCOL_VERSION : UInt8 := 2
def PROGRAM_VERSION_NAME : String := "anytls/0.4.0"

structure State where
  padding : PaddingFactory
  peerVersion : UInt8
  receivedSettingsFromClient : Bool

def State.new (padding : PaddingFactory) : State := ⟨padding, 0, false⟩

inductive ProtocolAction where
  | sendFrame (frame : Frame)
  | sendFrameSync (frame : Frame)
  | pushStreamData (sid : UInt32) (data : Bytes)
  | ensureIncomingStream (sid : UInt32)
  | closeLocalStream (sid : UInt32)
  | closeRemoteStream (sid : UInt32) (message : String)
  | releaseWriteBuffering
  | alertAndFail (message : String)
deriving DecidableEq

namespace Engine

/-- The settings map of `on_session_start`. -/
def clientSettings (state : State) (clientName : String) : StringMap :=
  ((((∅ : StringMap).insert "v" (toString PROTOCOL_VERSION.toNat)).insert "client" clientName).insert
    "padding-md5" state.padding.md5)

/-- `iterate` is the order in which a `HashMap` yields its entries. -/
def onSessionStart (iterate : StringMap.Order) (state : State)
    (isClient : Bool) (clientName : String) : List ProtocolAction :=
  if isClient then
    [.sendFrame (Frame.withData .settings 0
      (StringMap.toBytes (iterate (clientSettings state clientName))))]
  else []

/-- A declared version, if it parses. -/
def version? (settings : StringMap) : Option UInt8 :=
  ((settings.lookup "v").bind (parseUnsigned 256)).map UInt8.ofNat

def serverSettings (version : UInt8) : Frame :=
  Frame.withData .serverSettings 0 (StringMap.toBytes [⟨"v", toString version.toNat⟩])

/-- The server's answer to the settings of a client. -/
def onSettings (state : State) (settings : StringMap) : State × List ProtocolAction :=
  let state := { state with receivedSettingsFromClient := true }
  let update :=
    if settings.lookup "padding-md5" = some state.padding.md5 then []
    else [.sendFrameSync (Frame.withData .updatePaddingScheme 0 state.padding.rawScheme)]
  match version? settings with
  | some version =>
    if version ≥ MIN_PROTOCOL_VERSION then
      ({ state with peerVersion := version }, update ++ [.sendFrameSync (serverSettings version)])
    else (state, update)
  | none => (state, update)

def onFrame (md5 : Bytes → String) (state : State) (isClient : Bool) (frame : Frame) :
    State × List ProtocolAction :=
  match frame.cmd with
  | .waste | .heartResponse => (state, [])
  | .psh =>
    if frame.data.isEmpty then (state, []) else (state, [.pushStreamData frame.sid frame.data])
  | .syn =>
    if isClient then (state, [])
    else if state.receivedSettingsFromClient then (state, [.ensureIncomingStream frame.sid])
    else (state, [.alertAndFail "client did not send its settings"])
  | .fin => (state, [.closeLocalStream frame.sid])
  | .settings =>
    if !isClient && !frame.data.isEmpty then onSettings state (StringMap.fromBytes frame.data)
    else (state, [])
  | .updatePaddingScheme =>
    if isClient && !frame.data.isEmpty then
      match PaddingFactory.new md5 frame.data with
      | some factory => ({ state with padding := factory }, [])
      | none => (state, [])
    else (state, [])
  | .heartRequest => (state, [.sendFrame (Frame.new .heartResponse frame.sid)])
  | .serverSettings =>
    if isClient && !frame.data.isEmpty then
      match version? (StringMap.fromBytes frame.data) with
      | some version => ({ state with peerVersion := version }, [])
      | none => (state, [])
    else (state, [])
  | .synAck =>
    if frame.data.isEmpty then (state, [])
    else (state, [.closeRemoteStream frame.sid (String.ofList (fromUtf8Lossy frame.data))])
  | .alert | .unknown _ => (state, [])

end Engine

end AnyTls
