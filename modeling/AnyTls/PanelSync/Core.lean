import AnyTls.Core.Io
import AnyTls.NodeApi.Users
import Mathlib.Algebra.Group.Prod
import Mathlib.Order.Basic

/-! The traffic audit of `panel_sync/traffic_audit.rs`, which every session adds to, and
the client of the panel in `panel_sync/core.rs`, which fetches the users, reports their
traffic and remembers what it has reported. A call of the client is a program counter over
its awaits: the two requests and the locks of the audit. -/
namespace AnyTls

abbrev Uuid := BitVec 128

structure ClientNode where
  enable : Bool
  upstreamTraffic : UInt64
  downstreamTraffic : UInt64
deriving DecidableEq

namespace ClientNode

def new : ClientNode := ⟨false, 0, 0⟩

def addUpstreamTraffic (node : ClientNode) (traffic : UInt64) : ClientNode :=
  { node with upstreamTraffic := saturatingAdd node.upstreamTraffic traffic }

def addDownstreamTraffic (node : ClientNode) (traffic : UInt64) : ClientNode :=
  { node with downstreamTraffic := saturatingAdd node.downstreamTraffic traffic }

end ClientNode

/-- `client_map`. -/
abbrev TrafficAudit := AList fun _ : Uuid => ClientNode

namespace TrafficAudit

def addClient (audit : TrafficAudit) (clientId : Uuid) : TrafficAudit :=
  match audit.lookup clientId with
  | some _ => audit
  | none => audit.insert clientId .new

def removeClient (audit : TrafficAudit) (clientId : Uuid) : TrafficAudit := audit.erase clientId

def modifyNode (audit : TrafficAudit) (clientId : Uuid) (change : ClientNode → ClientNode) : TrafficAudit :=
  match audit.lookup clientId with
  | some node => audit.insert clientId (change node)
  | none => audit

def addUpstreamTrafficOf (audit : TrafficAudit) (clientId : Uuid) (traffic : UInt64) : TrafficAudit :=
  audit.modifyNode clientId (·.addUpstreamTraffic traffic)

def addDownstreamTrafficOf (audit : TrafficAudit) (clientId : Uuid) (traffic : UInt64) : TrafficAudit :=
  audit.modifyNode clientId (·.addDownstreamTraffic traffic)

def getUpstreamTrafficOf (audit : TrafficAudit) (clientId : Uuid) : UInt64 :=
  (audit.lookup clientId).elim 0 (·.upstreamTraffic)

def getDownstreamTrafficOf (audit : TrafficAudit) (clientId : Uuid) : UInt64 :=
  (audit.lookup clientId).elim 0 (·.downstreamTraffic)

def getEnableOf (audit : TrafficAudit) (clientId : Uuid) : Bool := (audit.lookup clientId).elim false (·.enable)

def setEnableOf (audit : TrafficAudit) (clientId : Uuid) (enable : Bool) : TrafficAudit :=
  audit.insert clientId { (audit.lookup clientId).getD .new with enable := enable }

end TrafficAudit

/-! ### The requests -/

structure PanelSyncConfig where
  webapiUrl : Option String
  webapiToken : Option String
  nodeId : Option Nat

/-- `build_url`, with the parameters of the query. -/
def PanelSyncConfig.buildUrl (config : PanelSyncConfig) (action : String) (params : List (String × String)) :
    Except IoError String :=
  match config.webapiUrl with
  | none => .error (.otherError "panel sync webapi_url not set")
  | some url =>
    let base := String.ofList (url.toList.reverse.dropWhile (· = '/')).reverse
    let start := base ++ "/mod_mu/" ++ action ++ "?key=" ++ config.webapiToken.getD ""
    .ok (params.foldl (fun url (key, value) => url ++ "&" ++ key ++ "=" ++ value) start)

/-- The URL of a request for this node. -/
def PanelSyncConfig.nodeUrl (config : PanelSyncConfig) (action : String) : Except IoError String :=
  match config.nodeId with
  | none => .error (.otherError "panel sync node_id not set")
  | some nodeId => config.buildUrl action [("node_id", toString nodeId)]

/-- The value of a response: its field `ret` as an integer, its debug text, and its
field `data`, or all of it, as the type that is asked for. -/
structure PanelBody (α : Type) where
  ret : Option Int
  debug : String
  data : Except String α

structure PanelResponse (α : Type) where
  status : Nat
  statusText : String
  json : Except String (PanelBody α)

def parsePayload {α : Type} (response : PanelResponse α) : Except IoError α :=
  if response.status ≠ 200 then .error (.otherError response.statusText)
  else
    match response.json with
    | .error message => .error (.otherError message)
    | .ok value =>
      if value.ret.getD 0 = 0 then .error (.otherError ("Wrong data: " ++ value.debug))
      else
        match value.data with
        | .error message => .error (.otherError message)
        | .ok data => .ok data

/-- What `send` and then `parse_payload` come to. -/
def received {α : Type} (reply : Except String (PanelResponse α)) : Except IoError α :=
  match reply with
  | .error message => .error (.otherError message)
  | .ok response => parsePayload response

/-! ### The client -/

structure SyncUser where
  clientId : Option Uuid
  enable : Bool
deriving DecidableEq

structure TrafficRecord where
  clientId : Uuid
  u : UInt64
  d : UInt64
deriving DecidableEq

abbrev ReportedTraffic := AList fun _ : Uuid => UInt64 × UInt64

/-- Where the client is in `sync_once` or `report_traffic_once`. -/
inductive PanelPc where
  | idle
  | fetching
  | listing (users : List SyncUser)
  | syncing (existing seen : List Uuid) (users : List SyncUser)
  | removing (seen existing : List Uuid)
  | gathering
  | counting (left : List Uuid) (payload : List TrafficRecord) (current : ReportedTraffic)
  | posting (payload : List TrafficRecord) (current : ReportedTraffic)
deriving DecidableEq

/-- What the two stores are compared with: the clients registered, the traffic added to
registered clients, and the reports that were acknowledged. -/
inductive PanelEvent where
  | registered (clientId : Uuid)
  | credited (clientId : Uuid) (up down : UInt64)
  | acknowledged (records : List TrafficRecord)
deriving DecidableEq

structure Panel where
  config : PanelSyncConfig
  audit : TrafficAudit
  reportedTraffic : ReportedTraffic
  pc : PanelPc
  history : List PanelEvent
  /-- the results of the calls -/
  returned : List (Except IoError Unit)

inductive PanelAction where
  | addUpstream (clientId : Uuid) (traffic : UInt64)
  | addDownstream (clientId : Uuid) (traffic : UInt64)
  | syncOnce
  | reportTrafficOnce
  /-- the response to `GET users` -/
  | fetched (reply : Except String (PanelResponse (List SyncUser)))
  /-- `get_client_list`, in the order in which the map is iterated -/
  | list (order : List Uuid)
  /-- the next round of a loop, or what follows the last one -/
  | next
  /-- the response to `POST users/traffic` -/
  | replied (reply : Except String (PanelResponse Unit))

namespace Panel

def new (config : PanelSyncConfig) : Panel := ⟨config, ∅, ∅, .idle, [], []⟩

def finish (s : Panel) (result : Except IoError Unit) : Panel :=
  { s with pc := .idle, returned := s.returned ++ [result] }

/-- `credited` when the client is there to be credited. -/
def credit (s : Panel) (clientId : Uuid) (up down : UInt64) : List PanelEvent :=
  if (s.audit.lookup clientId).isSome then s.history ++ [.credited clientId up down] else s.history

/-- The traffic that is not reported yet. -/
def delta (s : Panel) (clientId : Uuid) : UInt64 × UInt64 :=
  let lastReported := (s.reportedTraffic.lookup clientId).getD (0, 0)
  (saturatingSub (s.audit.getUpstreamTrafficOf clientId) lastReported.1,
    saturatingSub (s.audit.getDownstreamTrafficOf clientId) lastReported.2)

/-- A round of the loop over the users of the panel. -/
def syncUser (s : Panel) (existing seen : List Uuid) (users : List SyncUser) (user : SyncUser) : Panel :=
  match user.clientId with
  | none => { s with pc := .syncing existing seen users }
  | some clientId =>
    { s with
      audit := (s.audit.addClient clientId).setEnableOf clientId user.enable
      history := if (s.audit.lookup clientId).isSome then s.history else s.history ++ [.registered clientId]
      pc := .syncing existing (clientId :: seen) users }

/-- A round of the loop over the clients that were there before. -/
def removeUnseen (s : Panel) (seen existing : List Uuid) (clientId : Uuid) : Panel :=
  if clientId ∈ seen then { s with pc := .removing seen existing }
  else
    { s with
      audit := s.audit.removeClient clientId
      reportedTraffic := s.reportedTraffic.erase clientId
      pc := .removing seen existing }

/-- A round of the loop that gathers the report. -/
def countClient (s : Panel) (left : List Uuid) (payload : List TrafficRecord) (current : ReportedTraffic)
    (clientId : Uuid) : Panel :=
  let upstream := s.audit.getUpstreamTrafficOf clientId
  let downstream := s.audit.getDownstreamTrafficOf clientId
  let (deltaUpstream, deltaDownstream) := s.delta clientId
  if deltaUpstream = 0 ∧ deltaDownstream = 0 then { s with pc := .counting left payload current }
  else
    { s with
      pc := .counting left (payload ++ [⟨clientId, deltaUpstream, deltaDownstream⟩])
        (current.insert clientId (upstream, downstream)) }

/-- The report is gathered. -/
def post (s : Panel) (payload : List TrafficRecord) (current : ReportedTraffic) : Panel :=
  if payload = [] then s.finish (.ok ())
  else
    match s.config.nodeUrl "users/traffic" with
    | .error error => s.finish (.error error)
    | .ok _ => { s with pc := .posting payload current }

def insertAll (reported current : ReportedTraffic) : ReportedTraffic :=
  current.entries.foldl (fun reported entry => reported.insert entry.1 entry.2) reported

def step (s : Panel) : PanelAction → Option Panel
  | .addUpstream clientId traffic =>
    some { s with
      audit := s.audit.addUpstreamTrafficOf clientId traffic
      history := s.credit clientId traffic 0 }
  | .addDownstream clientId traffic =>
    some { s with
      audit := s.audit.addDownstreamTrafficOf clientId traffic
      history := s.credit clientId 0 traffic }
  | .syncOnce =>
    if s.pc ≠ .idle then none
    else
      match s.config.nodeUrl "users" with
      | .error error => some (s.finish (.error error))
      | .ok _ => some { s with pc := .fetching }
  | .reportTrafficOnce => if s.pc ≠ .idle then none else some { s with pc := .gathering }
  | .fetched reply =>
    if s.pc ≠ .fetching then none
    else
      match received reply with
      | .error error => some (s.finish (.error error))
      | .ok users => some { s with pc := .listing users }
  | .list order =>
    if ¬ order.Perm s.audit.keys then none
    else
      match s.pc with
      | .listing users => some { s with pc := .syncing order [] users }
      | .gathering => some { s with pc := .counting order [] ∅ }
      | _ => none
  | .next =>
    match s.pc with
    | .syncing existing seen [] => some { s with pc := .removing seen existing }
    | .syncing existing seen (user :: users) => some (s.syncUser existing seen users user)
    | .removing _ [] => some (s.finish (.ok ()))
    | .removing seen (clientId :: existing) => some (s.removeUnseen seen existing clientId)
    | .counting [] payload current => some (s.post payload current)
    | .counting (clientId :: left) payload current => some (s.countClient left payload current clientId)
    | _ => none
  | .replied reply =>
    match s.pc with
    | .posting payload current =>
      match received reply with
      | .error error => some (s.finish (.error error))
      | .ok _ =>
        some { s.finish (.ok ()) with
          reportedTraffic := insertAll s.reportedTraffic current
          history := s.history ++ [.acknowledged payload] }
    | _ => none

end Panel

end AnyTls
