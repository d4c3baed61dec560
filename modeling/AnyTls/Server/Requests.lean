import AnyTls.Server.Statistics

/-! What the requests to the management API can do to a running server. A step of a request changes
the registry only if the request is authorized and is for a push of users or a quota reset, however
the requests and the connections are interleaved; one that is answered with an error has changed
nothing on its way. -/
namespace AnyTls
variable {Address : Type}

namespace ApiCall
variable {hashPassword : String → PasswordHash} {fromSlice : Bytes → Except String UsersPutBody} {token : Option String}
  {collected : Except String Bytes} {registry registry' : UserRegistry} {call after : ApiCall}

/-- What is known of a request by how far it has come. -/
def Warranted (token : Option String) (registry : UserRegistry) (call : ApiCall) : Prop :=
  match call.phase with
  | .received => True
  | .scraping .. | .replaced => authorized call.request.authorization token = true
  | .collecting => authorized call.request.authorization token = true ∧ call.request.method = .put ∧
    call.request.path = "/users".toList ∧ call.request.upper.getD (2 ^ 64 - 1) ≤ MAX_BODY_BYTES
  | .found email id | .resetting email id _ | .storing email id _ => authorized call.request.authorization token = true ∧ call.request.method = .post ∧
    resetQuotaTarget call.request.path = some email ∧ ∃ entry, registry.heap[id]? = some entry ∧ entry.email = email
  | .answered response => authorized call.request.authorization token = true ∨
    response = errorResponse 401 "invalid or missing bearer token"

theorem Warranted.changes (warranted : call.Warranted token registry) (changes : registry.Changes hashPassword registry')
    (rep : ∃ users, registry.Represents hashPassword users) : call.Warranted token registry' := by
  obtain ⟨request, phase⟩ := call
  cases phase with
  | found | resetting | storing =>
    obtain ⟨known, method, target, entry, stored, named⟩ := warranted
    obtain ⟨entry', stored', same⟩ := changes.email rep stored
    exact ⟨known, method, target, entry', stored', same.trans named⟩
  | received | scraping | collecting | replaced | answered => exact warranted

theorem Warranted.routed {request phase} (rep : ∃ users, registry.Represents hashPassword users)
    (routed : Routed token request registry phase) : Warranted token registry ⟨request, phase⟩ := by
  cases routed with
  | unauthorized => exact .inr rfl
  | refuses _ _ known | healthy known => exact .inl known
  | scrapes known => exact known
  | collects known method path sized => exact ⟨known, method, path, sized⟩
  | finds email id known method target listed =>
    obtain ⟨users, rep⟩ := rep
    obtain ⟨_, entry, -, -, stored, -⟩ := rep.live listed
    exact ⟨known, method, target, entry, stored, rep.entry_email listed stored⟩

theorem Warranted.moved (warranted : call.Warranted token registry)
    (rep : ∃ users, registry.Represents hashPassword users)
    (moved : Moved hashPassword fromSlice token collected registry call after registry') :
    after.Warranted token registry' := by
  cases moved with
  | routes request phase routed => exact .routed rep routed
  | loads | lists | loadsUp | loadsDown => exact warranted
  | reports | counts => exact .inl warranted
  | rejects | stores => exact .inl warranted.1
  | replaces => exact warranted.1

/-- A change of the registry by a request that the API lets through. -/
inductive Permitted (hashPassword : String → PasswordHash) (fromSlice : Bytes → Except String UsersPutBody)
    (token : Option String) (request : Request) (collected : Except String Bytes) (registry : UserRegistry) :
    UserRegistry → Prop where
  | push (bytes body) : authorized request.authorization token = true →
      request.method = .put → request.path = "/users".toList →
      request.upper.getD (2 ^ 64 - 1) ≤ MAX_BODY_BYTES → collected = .ok bytes → fromSlice bytes = .ok body →
      Permitted hashPassword fromSlice token request collected registry (registry.replace hashPassword body.intoSpecs)
  | reset (email id entry total) : authorized request.authorization token = true →
      request.method = .post → resetQuotaTarget request.path = some email → registry.heap[id]? = some entry →
      entry.email = email →
      Permitted hashPassword fromSlice token request collected registry
        (registry.modify id (UserEntry.storeQuotaBase total))

theorem Warranted.permitted (warranted : call.Warranted token registry)
    (moved : Moved hashPassword fromSlice token collected registry call after registry') :
    registry' = registry ∨ Permitted hashPassword fromSlice token call.request collected registry registry' := by
  cases moved with
  | routes | loads | lists | reports | rejects | counts | loadsUp | loadsDown => exact .inl rfl
  | replaces request bytes body read parsed =>
    obtain ⟨known, method, path, sized⟩ := warranted
    exact .inr (.push bytes body known method path sized read parsed)
  | stores request email id total =>
    obtain ⟨known, method, target, entry, stored, named⟩ := warranted
    exact .inr (.reset email id entry total known method target stored named)

end ApiCall

/-- A request that may still be answered with an error. -/
def ApiPhase.fails : ApiPhase → Bool
  | .received | .collecting | .answered ⟨_, .error _⟩ => true
  | _ => false

namespace ServerNode
variable {crates : ServerCrates Address} {config : ServerConfig} {s t : ServerNode Address} {a : ServerAction Address}
  {j : Nat}

/-- Every request is where it may be. -/
structure Guarded (hashPassword : String → PasswordHash) (token : Option String) (s : ServerNode Address) : Prop where
  tracked : ∃ n, s.Tracked hashPassword n
  warranted : ∀ call ∈ s.calls, call.Warranted token s.stores.registry

theorem guarded_step (guarded : s.Guarded crates.hashPassword config.apiToken)
    (stepped : s.step crates config a = some t) : t.Guarded crates.hashPassword config.apiToken := by
  obtain ⟨n, tracked⟩ := guarded.tracked
  refine ⟨⟨_, tracked_step tracked stepped⟩, fun call member => ?_⟩
  have kept {call : ApiCall} (old : call ∈ s.calls) : call.Warranted config.apiToken t.stores.registry :=
    (guarded.warranted call old).changes (changes stepped) tracked.represents
  cases step_moved stepped with
  | accept | connection | panel => exact kept member
  | request request =>
    rcases List.mem_append.mp member with old | new
    · exact kept old
    · obtain rfl := List.mem_singleton.mp new
      trivial
  | @api j collected before after registry placed moved =>
    rcases List.mem_or_eq_of_mem_set member with old | rfl
    · exact kept old
    · exact (guarded.warranted before (List.mem_of_getElem? placed)).moved tracked.represents
        (ApiCall.step_moved _ _ _ moved)

def putUsers (authorization : String) : ServerAction (Bytes × UInt16) :=
  .request ⟨.put, "/users".toList, some (asBytes authorization), some 0⟩

/-- One push with the token and one without. -/
def pushes : List (ServerAction (Bytes × UInt16)) :=
  [putUsers "Bearer t", putUsers "Bearer x", .api 0 (.ok []), .api 1 (.ok [])]

end ServerNode

end AnyTls
