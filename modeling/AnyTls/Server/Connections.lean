import AnyTls.NodeApi.Api
import AnyTls.NodeApi.ConcurrentAuth
import AnyTls.PanelSync.Core
import AnyTls.Server.Handler
import AnyTls.Server.Preamble

/-! The server of `bin/server.rs` as a whole: `handle_connection` for any number of connections,
`handle_session` for any number of streams on each, the context they share, the requests to the
management API and the client of the panel, in any order. A connection's context holds the guard of
its user; it is dropped with the last of the connection's task and its stream handlers. -/
namespace AnyTls
variable {Address : Type}

/-- What `run` settles before it accepts connections. -/
structure ServerConfig where
  /-- `Authenticator`: the hash of the shared password, or none for a password per user -/
  sharedPassword : Option Bytes
  panelSyncEnabled : Bool
  apiToken : Option String

/-! ### Stream handlers and what they count -/

/-- What a handler has counted in either direction, and what has become of the bytes. -/
structure Tally where
  up : Nat
  /-- of `up`: accepted by the destination, and in a write that failed -/
  sent : Nat
  unsent : Nat
  down : Nat
  /-- of `down`: accepted by the stream, and refused by it -/
  queued : Nat
  refused : Nat
deriving DecidableEq, Repr

namespace Tally

def zero : Tally := ⟨0, 0, 0, 0, 0, 0⟩

def add (a b : Tally) : Tally :=
  ⟨a.up + b.up, a.sent + b.sent, a.unsent + b.unsent, a.down + b.down, a.queued + b.queued, a.refused + b.refused⟩

def counted (bytes : Nat) : Tally := { zero with up := bytes }

/-- The outbound has answered for bytes that were counted before. -/
def answered (bytes : Nat) : Except IoError Unit → Tally
  | .ok () => { zero with sent := bytes }
  | .error _ => { zero with unsent := bytes }

/-- Bytes are counted and then written to the stream. -/
def written (bytes : Nat) : Except IoError Unit → Tally
  | .ok () => { zero with down := bytes, queued := bytes }
  | .error _ => { zero with down := bytes, refused := bytes }

end Tally

/-- The loops that check the approval once a second. -/
inductive Half where
  | s2o | o2s | uot
deriving DecidableEq, Repr

inductive TaskAction (Address : Type) where
  /-- a step that does not ask the context -/
  | own (action : HandlerAction)
  | approve (now : Int64)
  | tick (half : Half) (now : Int64)
  /-- `recv_uot_udp_payload` -/
  | inbound (received : Except IoError (Bytes × Address))

def HandlerAction.plain : HandlerAction → Bool
  | .approved _ | .s2o (.tick _) | .o2s (.tick _) | .relay (.tick _) | .relay (.inbound _) => false
  | _ => true

def Half.action (approved : Bool) : Half → HandlerAction
  | .s2o => .s2o (.tick approved)
  | .o2s => .o2s (.tick approved)
  | .uot => .relay (.tick approved)

/-- What becomes of a datagram before it is counted. -/
def RelayKind.encode (codec : AddressCodec Address) (kind : RelayKind Address) (payload : Bytes)
    (source : Address) : Except IoError Unit :=
  match kind.mode with
  | .datagram => (uotEncodePacket codec .datagram (some source) payload).map fun _ => ()
  | .connected => (uotEncodePacket codec .connected none payload).map fun _ => ()

namespace Handler

/-- The step of the handler that an action stands for. -/
def resolve (codec : AddressCodec Address) (approved : Int64 → Bool) (h : Handler Address) :
    TaskAction Address → Option HandlerAction
  | .own action => if action.plain then some action else none
  | .approve now => some (.approved (approved now))
  | .tick half now => some (half.action (approved now))
  | .inbound received =>
    match h.phase with
    | .uotRelay relay =>
      some (.relay (.inbound (received.bind fun (payload, source) => relay.kind.encode codec payload source)))
    | _ => none

/-- What a step counts: `record_up` after a read of the stream and before the write to the
outbound, `record_down` after a read of the outbound and before the write to the stream. -/
def tally (codec : AddressCodec Address) (h next : Handler Address) : TaskAction Address → Tally
  | .own (.s2o .poll) =>
    match next.phase with
    | .tcpRelay (.writing bytes) _ _ => .counted bytes.length
    | _ => .zero
  | .own (.s2o (.wrote result)) =>
    match h.phase with
    | .tcpRelay (.writing bytes) _ _ => .answered bytes.length result
    | _ => .zero
  | .own (.o2s (.read (.ok bytes))) => .written bytes.length h.stream.write
  | .own (.relay .handle) =>
    match next.phase with
    | .uotRelay ⟨_, _, _, _, _, .sending datagram, _, _, _, _, _⟩ => .counted datagram.2.length
    | _ => .zero
  | .own (.relay (.sent result)) =>
    match h.phase with
    | .uotRelay ⟨_, _, _, _, _, .sending datagram, _, _, _, _, _⟩ => .answered datagram.2.length result
    | _ => .zero
  | .inbound (.ok (payload, source)) =>
    match h.phase with
    | .uotRelay relay =>
      match relay.kind.encode codec payload source with
      | .ok () => .written payload.length h.stream.write
      | .error _ => .zero
    | _ => .zero
  | _ => .zero

def running (h : Handler Address) : Bool :=
  match h.phase with
  | .returned _ | .panicked => false
  | _ => true

end Handler

/-- A spawned `handle_session`. -/
structure StreamTask (Address : Type) where
  handler : Handler Address
  /-- history -/
  tally : Tally

namespace StreamTask

def start (peerVersion : UInt8) : StreamTask Address := ⟨.start peerVersion, .zero⟩

/-- A step, and what it counts. -/
def step (codec : AddressCodec Address) (approved : Int64 → Bool) (task : StreamTask Address)
    (action : TaskAction Address) : Option (StreamTask Address × Tally) := do
  let resolved ← task.handler.resolve codec approved action
  let handler ← task.handler.step codec resolved
  let counted := task.handler.tally codec handler action
  some (⟨handler, task.tally.add counted⟩, counted)

end StreamTask

/-! ### Connections -/

inductive ConnPhase where
  | reading
  | authenticating (authData : Bytes) (phase : AuthPhase)
  | padding (length : Nat)
  | approving
  | serving
  /-- not authenticated: the bytes read are handed to a relay or dropped -/
  | rejected (authData : Bytes)
  | ended

/-- `handle_connection`, with the `ConnCtx` it makes. -/
structure ServerConnection (Address : Type) where
  phase : ConnPhase
  /-- the user of the outcome, then of the context; kept as history -/
  user : Option AuthedUser
  clientId : Option Uuid
  tasks : List (StreamTask Address)

inductive ConnAction (Address : Type) where
  /-- the loop that reads the 34 bytes ends -/
  | read (result : Except IoError Bytes)
  /-- the next step of `UserRegistry::authenticate` -/
  | authenticate (now : Int64)
  | readPadding (result : Except IoError Bytes)
  | approve (now : Int64)
  /-- a SYN makes a stream and spawns its handler -/
  | opened (peerVersion : UInt8)
  /-- `session.run` returns -/
  | returned
  | task (k : Nat) (action : TaskAction Address)

/-- What a connection shares with the others. -/
structure Stores where
  registry : UserRegistry
  panel : Panel

namespace ServerConnection

def new : ServerConnection Address := ⟨.reading, none, none, []⟩

def ownsContext (c : ServerConnection Address) : Bool :=
  match c.phase with
  | .padding _ | .approving | .serving => true
  | _ => false

/-- Someone holds the context, and with it the guard of the user. -/
def holds (c : ServerConnection Address) : Bool := c.ownsContext || c.tasks.any (·.handler.running)

def checkIncomingClientApproved (panelSyncEnabled : Bool) (audit : TrafficAudit) (clientId : Option Uuid) : Bool :=
  if !panelSyncEnabled then true
  else
    match clientId with
    | some clientId => audit.getEnableOf clientId
    | none => false

/-- `ConnCtx::approved`. -/
def approved (config : ServerConfig) (stores : Stores) (c : ServerConnection Address) (now : Int64) : Bool :=
  match c.user with
  | some user => (user.denyReason stores.registry now).isNone
  | none => checkIncomingClientApproved config.panelSyncEnabled stores.panel.audit c.clientId

/-- `ConnCtx::record_up`. -/
def recordUp (c : ServerConnection Address) (stores : Stores) (bytes : Nat) : Stores :=
  match c.user with
  | some user => { stores with registry := user.recordUp stores.registry (UInt64.ofNat bytes) }
  | none =>
    match c.clientId with
    | some clientId =>
      { stores with panel := (stores.panel.step (.addUpstream clientId (UInt64.ofNat bytes))).getD stores.panel }
    | none => stores

/-- `ConnCtx::record_down`. -/
def recordDown (c : ServerConnection Address) (stores : Stores) (bytes : Nat) : Stores :=
  match c.user with
  | some user => { stores with registry := user.recordDown stores.registry (UInt64.ofNat bytes) }
  | none =>
    match c.clientId with
    | some clientId =>
      { stores with panel := (stores.panel.step (.addDownstream clientId (UInt64.ofNat bytes))).getD stores.panel }
    | none => stores

def record (c : ServerConnection Address) (stores : Stores) (counted : Tally) : Stores :=
  let stores := if counted.up = 0 then stores else c.recordUp stores counted.up
  if counted.down = 0 then stores else c.recordDown stores counted.down

/-- The last holder of the context drops it. -/
def release (c : ServerConnection Address) (stores : Stores) : Stores :=
  match c.user with
  | some user => { stores with registry := user.drop stores.registry }
  | none => stores

/-- The connection is authenticated: the padding is next, if there is any. -/
def admitted (c : ServerConnection Address) (authData : Bytes) (user : Option AuthedUser) : ServerConnection Address :=
  let paddingLen := BigEndian.value (authData.drop 32)
  { c with user, phase := if paddingLen > 0 then .padding paddingLen else .approving }

/-- `Authenticator::authenticate`, up to the first step in the registry. -/
def presented (config : ServerConfig) (c : ServerConnection Address) (authData : Bytes) : ServerConnection Address :=
  if authData.length = 34 then
    match config.sharedPassword with
    | some expected =>
      if authData.take 32 = expected then c.admitted authData none else { c with phase := .rejected authData }
    | none => { c with phase := .authenticating authData .begun }
  else { c with phase := .rejected authData }

/-- The connection after a step of `UserRegistry::authenticate`. -/
def authenticated (c : ServerConnection Address) (authData : Bytes) : AuthPhase → ServerConnection Address
  | .authed user => c.admitted authData (some user)
  | .refused => { c with phase := .rejected authData }
  | phase => { c with phase := .authenticating authData phase }

/-- A step of the connection's own task. -/
def advance (uuid : UuidCrate) (config : ServerConfig) (stores : Stores) (c : ServerConnection Address) :
    ConnAction Address → Option (ServerConnection Address × Stores)
  | .read result =>
    match c.phase, result with
    | .reading, .ok authData => if authData.length ≤ 34 then some (c.presented config authData, stores) else none
    | .reading, .error _ => some ({ c with phase := .ended }, stores)
    | _, _ => none
  | .authenticate now =>
    match c.phase with
    | .authenticating authData phase =>
      (AuthState.advance stores.registry ⟨authData.take 32, phase⟩ now).map fun (phase, registry) =>
        (c.authenticated authData phase, { stores with registry })
    | _ => none
  | .readPadding result =>
    match c.phase, result with
    | .padding length, .ok paddingData =>
      if paddingData.length = length then
        some ({ c with clientId := extractClientIdFromPadding uuid paddingData, phase := .approving }, stores)
      else none
    | .padding _, .error _ => some ({ c with phase := .ended }, stores)
    | _, _ => none
  | .approve now =>
    match c.phase with
    | .approving => some ({ c with phase := if c.approved config stores now then .serving else .ended }, stores)
    | _ => none
  | .opened peerVersion =>
    match c.phase with
    | .serving => some ({ c with tasks := c.tasks ++ [.start peerVersion] }, stores)
    | _ => none
  | .returned =>
    match c.phase with
    | .serving => some ({ c with phase := .ended }, stores)
    | _ => none
  | .task _ _ => none

/-- A step of one of the connection's stream handlers. -/
def taskStep (codec : AddressCodec Address) (config : ServerConfig) (stores : Stores) (c : ServerConnection Address)
    (k : Nat) (action : TaskAction Address) : Option (ServerConnection Address × Stores) := do
  let task ← c.tasks[k]?
  let (task, counted) ← task.step codec (c.approved config stores) action
  some ({ c with tasks := c.tasks.set k task }, c.record stores counted)

def step (uuid : UuidCrate) (codec : AddressCodec Address) (config : ServerConfig) (stores : Stores)
    (c : ServerConnection Address) : ConnAction Address → Option (ServerConnection Address × Stores)
  | .task k action => c.taskStep codec config stores k action
  | action => c.advance uuid config stores action

end ServerConnection

/-! ### The server -/

structure ServerNode (Address : Type) where
  stores : Stores
  connections : List (ServerConnection Address)
  calls : List ApiCall

inductive ServerAction (Address : Type) where
  | accept
  | connection (i : Nat) (action : ConnAction Address)
  | request (request : Request)
  /-- a step of a request, with what its body came to -/
  | api (j : Nat) (collected : Except String Bytes)
  | panel (action : PanelAction)

/-- A step of the panel's client, as opposed to one of a stream handler. -/
def PanelAction.ofClient : PanelAction → Bool
  | .addUpstream _ _ | .addDownstream _ _ => false
  | _ => true

/-- What the server is given. -/
structure ServerCrates (Address : Type) where
  codec : AddressCodec Address
  uuid : UuidCrate
  hashPassword : String → PasswordHash
  fromSlice : Bytes → Except String UsersPutBody

namespace ServerNode
variable (crates : ServerCrates Address) (config : ServerConfig)

/-- The server with the users of its file, or none. -/
def start (panel : PanelSyncConfig) (users : UsersPutBody) : ServerNode Address :=
  ⟨⟨UserRegistry.new.replace crates.hashPassword users.intoSpecs, .new panel⟩, [], []⟩

def connectionStep (s : ServerNode Address) (i : Nat) (action : ConnAction Address) : Option (ServerNode Address) := do
  let before ← s.connections[i]?
  let (after, stores) ← before.step crates.uuid crates.codec config s.stores action
  some { s with
    stores := if before.holds && !after.holds then after.release stores else stores
    connections := s.connections.set i after }

def step (s : ServerNode Address) : ServerAction Address → Option (ServerNode Address)
  | .accept => some { s with connections := s.connections ++ [.new] }
  | .connection i action => s.connectionStep crates config i action
  | .request request => some { s with calls := s.calls ++ [⟨request, .received⟩] }
  | .api j collected => do
    let call ← s.calls[j]?
    let (call, registry) ← call.step crates.hashPassword crates.fromSlice config.apiToken collected s.stores.registry
    some { s with stores := { s.stores with registry }, calls := s.calls.set j call }
  | .panel action =>
    if action.ofClient then
      (s.stores.panel.step action).map fun panel => { s with stores := { s.stores with panel } }
    else none

end ServerNode

end AnyTls
