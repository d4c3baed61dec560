import AnyTls.NodeApi.Ledger
import AnyTls.NodeApi.PutUsers
import AnyTls.Util.UrlEncoding

/-! The management API of `node_api/api.rs`: who may call it, what a path stands for, and the
steps of a request. A request waits for its body, takes the locks of the registry one after the
other and loads and stores the counters without them, one at a time, so that other requests and
sessions come in between.
`serde_json` is the parameter `fromSlice`. -/
namespace AnyTls

def MAX_BODY_BYTES : Nat := 8 * 1024 * 1024

inductive Method where
  | get | put | post | other
deriving DecidableEq, Repr

structure Request where
  method : Method
  path : Text
  /-- the value of the `Authorization` header -/
  authorization : Option Bytes
  /-- the upper bound of the body's size hint -/
  upper : Option Nat

/-- The JSON a response carries. -/
inductive ApiBody where
  | error (message : String)
  | status (status : String)
  | stats (users : AList fun _ : String => StatsUser)
  | users (count : Nat)
  | email (email : String)

structure Response where
  status : Nat
  body : ApiBody

def errorResponse (status : Nat) (message : String) : Response := ⟨status, .error message⟩

/-! ### The bearer token -/

/-- `HeaderValue::to_str` accepts visible ASCII, blanks and tabs. -/
def isHeaderText (value : Bytes) : Bool :=
  value.all fun byte => (32 ≤ byte.toNat && byte.toNat < 127) || byte.toNat = 9

/-- The comparison looks at every byte. -/
def differences (a b : Bytes) : UInt8 := (a.zip b).foldl (fun acc pair => acc ||| (pair.1 ^^^ pair.2)) 0

def sameToken (presented token : Bytes) : Bool :=
  if presented.length ≠ token.length then false else differences presented token = 0

def authorized (header : Option Bytes) (token : Option String) : Bool :=
  match token with
  | none => true
  | some token =>
    match header with
    | none => false
    | some value =>
      if isHeaderText value then sameToken ((value.dropPrefix? (asBytes "Bearer ")).getD value) (asBytes token)
      else false

theorem or_eq_zero {a b : UInt8} : a ||| b = 0 ↔ a = 0 ∧ b = 0 := by
  rw [← UInt8.toBitVec_inj, ← UInt8.toBitVec_inj, ← UInt8.toBitVec_inj]
  exact BitVec.or_eq_zero_iff

theorem foldl_differences (pairs : List (UInt8 × UInt8)) (acc) :
    pairs.foldl (fun acc pair => acc ||| (pair.1 ^^^ pair.2)) acc = 0 ↔
      acc = 0 ∧ ∀ pair ∈ pairs, pair.1 = pair.2 := by
  induction pairs generalizing acc with
  | nil => simp
  | cons first rest ih =>
    rw [List.foldl_cons, ih, or_eq_zero, UInt8.xor_eq_zero_iff, List.forall_mem_cons, and_assoc]

/-- Looking at every byte decides equality. -/
theorem sameToken_iff {presented token} : sameToken presented token = true ↔ presented = token := by
  unfold sameToken
  split_ifs with sized
  · simp only [false_iff]
    rintro rfl
    exact sized rfl
  · rw [not_not] at sized
    rw [decide_eq_true_eq, differences, foldl_differences]
    constructor
    · rintro ⟨-, same⟩
      refine List.ext_getElem sized fun i inFirst inSecond => ?_
      refine same (presented[i], token[i]) (List.mem_iff_getElem.mpr ⟨i, ?_, List.getElem_zip⟩)
      rw [List.length_zip]
      omega
    · rintro rfl
      refine ⟨rfl, fun pair member => ?_⟩
      obtain ⟨i, bound, rfl⟩ := List.mem_iff_getElem.mp member
      rw [List.getElem_zip]

/-- Where a token is set, a request is let in exactly with the token after `Bearer `, or with
the token alone if it does not start so. -/
theorem authorized_iff {header token} :
    authorized header (some token) = true ↔ ∃ value, header = some value ∧ isHeaderText value = true ∧
      (value = asBytes "Bearer " ++ asBytes token ∨
        value = asBytes token ∧ ¬ asBytes "Bearer " <+: asBytes token) := by
  cases header with
  | none => simp [authorized]
  | some value =>
    simp only [authorized, Option.some.injEq, exists_eq_left']
    cases visible : isHeaderText value with
    | false => simp
    | true =>
      simp only [if_true, sameToken_iff, true_and]
      cases stripped : value.dropPrefix? (asBytes "Bearer ") with
      | some rest =>
        obtain ⟨front, rfl, same⟩ := List.dropPrefix?_eq_some_iff.mp stripped
        obtain rfl := eq_of_beq same
        rw [Option.getD_some, List.append_right_inj]
        constructor
        · exact .inl
        · rintro (same | ⟨same, other⟩)
          · exact same
          · exact absurd (same ▸ List.prefix_append _ _) other
      | none =>
        have bare : ¬ asBytes "Bearer " <+: value := by
          rintro ⟨rest, rfl⟩
          rw [List.dropPrefix?_append_of_beq rest (beq_self_eq_true _)] at stripped
          cases stripped
        rw [Option.getD_none]
        constructor
        · rintro rfl
          exact .inr ⟨rfl, bare⟩
        · rintro (rfl | ⟨same, -⟩)
          · exact absurd (List.prefix_append _ _) bare
          · exact same

/-! ### The path of a quota reset -/

def usersPath : Text := "/users/".toList

def resetPath : Text := "/reset-quota".toList

def resetQuotaTarget (path : Text) : Option String :=
  ((path.dropPrefix? usersPath).bind (·.dropSuffix? resetPath)).bind fun rest =>
    if rest.isEmpty || rest.contains '/' then none
    else (fromUtf8 (PercentEncoding.decode (utf8 rest))).map String.ofList

/-- A path is one of a quota reset exactly if it has one non-empty segment between its ends
that decodes to the email. -/
theorem resetQuotaTarget_iff {path email} :
    resetQuotaTarget path = some email ↔ ∃ segment, path = usersPath ++ segment ++ resetPath ∧ segment ≠ [] ∧
      '/' ∉ segment ∧ fromUtf8 (PercentEncoding.decode (utf8 segment)) = some email.toList := by
  simp only [resetQuotaTarget, Option.bind_eq_some_iff, List.dropPrefix?_eq_some_iff, List.dropSuffix?_eq_some_iff]
  constructor
  · rintro ⟨segment, ⟨tail, ⟨front, rfl, isFront⟩, back, rfl, isBack⟩, decoded⟩
    obtain rfl := eq_of_beq isFront
    obtain rfl := eq_of_beq isBack
    split_ifs at decoded with bad
    obtain ⟨text, read, rfl⟩ := Option.map_eq_some_iff.mp decoded
    simp only [Bool.or_eq_true, List.isEmpty_iff, List.contains_iff_mem, not_or] at bad
    exact ⟨segment, (List.append_assoc ..).symm, bad.1, bad.2, by rw [read, String.toList_ofList]⟩
  · rintro ⟨segment, rfl, filled, single, decoded⟩
    refine ⟨segment, ⟨segment ++ resetPath, ⟨usersPath, List.append_assoc .., beq_self_eq_true _⟩, resetPath, rfl,
      beq_self_eq_true _⟩, ?_⟩
    have good : (segment.isEmpty || segment.contains '/') = false := by
      rw [← Bool.not_eq_true, Bool.or_eq_true, List.isEmpty_iff, List.contains_iff_mem, not_or]
      exact ⟨filled, single⟩
    rw [good, decoded]
    simp

/-- Every email is reached: whatever a panel escapes besides `%` and `/`, the path it builds is
read back as the email. -/
theorem resetQuotaTarget_encoded {set : UInt8 → Bool} (percent : set 0x25 = true) (slash : set 0x2F = true)
    {email : String} (named : email ≠ "") :
    resetQuotaTarget (usersPath ++ utf8PercentEncode set email.toList ++ resetPath) = some email := by
  have decoded : PercentEncoding.decode (utf8 (utf8PercentEncode set email.toList)) = utf8 email.toList := by
    rw [utf8_utf8PercentEncode]
    refine PercentEncoding.decode_encode_of_percent ?_ _
    rw [escapes, Bool.or_eq_true]
    exact .inr percent
  have read : fromUtf8 (utf8 email.toList) = some email.toList := by
    rw [utf8, String.ofList_toList, fromUtf8_asBytes]
  refine resetQuotaTarget_iff.mpr ⟨_, rfl, ?_, ?_, by rw [decoded, read]⟩
  · intro empty
    rw [empty] at decoded
    have nothing : utf8 email.toList = [] := decoded.symm
    rw [nothing] at read
    have blank : email.toList = [] := Option.some.inj (read.symm.trans (by decide))
    exact named (String.toList_inj.mp blank)
  · intro member
    obtain ⟨byte, inside, same⟩ := List.mem_map.mp member
    have code : byte.toNat = 0x2F := by
      rw [← toNat_ofNat_byte (encoded_ascii inside), same]
      rfl
    obtain rfl : byte = 0x2F := UInt8.toNat_inj.mp code
    rcases PercentEncoding.mem_encode inside with ⟨-, spared⟩ | other | digit
    · simp [slash] at spared
    · exact absurd other (by decide)
    · exact absurd digit (by decide)

theorem resetQuotaTarget_everything_escaped :
    resetQuotaTarget (usersPath ++ utf8PercentEncode (fun _ => true) "a/b@x%".toList ++ resetPath) = some "a/b@x%" :=
  resetQuotaTarget_encoded rfl rfl (by decide)

/-! ### The steps of a request -/

/-- The loads of `collect_stats` from an entry; `quota_used` loads both counters again. -/
inductive Load where
  | connections | bytesUp | bytesDown | quotaUp | quotaDown | quotaBase | quotaBytes | expiresUnix
deriving DecidableEq, Repr

namespace Load

def all : List Load :=
  [.connections, .bytesUp, .bytesDown, .quotaUp, .quotaDown, .quotaBase, .quotaBytes, .expiresUnix]

/-- The row after a load. Its `quotaUsed` is the total while `quota_used` is under way. -/
def apply (entry : UserEntry) (row : StatsUser) : Load → StatsUser
  | .connections => { row with connections := entry.connections }
  | .bytesUp => { row with bytesIn := entry.up }
  | .bytesDown => { row with bytesOut := entry.down }
  | .quotaUp => { row with quotaUsed := entry.up }
  | .quotaDown => { row with quotaUsed := saturatingAdd row.quotaUsed entry.down }
  | .quotaBase => { row with quotaUsed := saturatingSub row.quotaUsed entry.quotaBase }
  | .quotaBytes => { row with quotaBytes := entry.quotaBytes }
  | .expiresUnix => { row with expiresUnix := entry.expiresUnix }

/-- The loads from an entry that stays as it is make its row. -/
theorem foldl_all (entry : UserEntry) (row : StatsUser) : all.foldl (apply entry) row = entry.stats := rfl

end Load

/-- A row before its loads. -/
def StatsUser.blank : StatsUser := ⟨0, 0, 0, 0, 0, 0⟩

def UserEntry.storeQuotaBase (total : UInt64) (entry : UserEntry) : UserEntry := { entry with quotaBase := total }

inductive ApiPhase where
  | received
  /-- `collect_stats` with the entries it has still to read, the rows it has made, the row of the
  first of the entries as far as it has been loaded, and the loads to come -/
  | scraping (left : List EntryId) (users : AList fun _ : String => StatsUser) (row : StatsUser) (loads : List Load)
  | collecting
  | replaced
  | found (email : String) (entry : EntryId)
  /-- `reset_quota` after its first load, and after its second -/
  | resetting (email : String) (entry : EntryId) (up : UInt64)
  | storing (email : String) (entry : EntryId) (total : UInt64)
  | answered (response : Response)

structure ApiCall where
  request : Request
  phase : ApiPhase

namespace ApiCall
variable (hashPassword : String → PasswordHash) (fromSlice : Bytes → Except String UsersPutBody)
  (token : Option String)

/-- `route` up to its first lock. -/
def routed (request : Request) (registry : UserRegistry) : ApiPhase :=
  if authorized request.authorization token = false then
    .answered (errorResponse 401 "invalid or missing bearer token")
  else
    match request.method with
    | .get =>
      if request.path = "/healthz".toList then .answered ⟨200, .status "ok"⟩
      else if request.path = "/stats".toList then .scraping (registry.index.byEmail.entries.map (·.2)) ∅ .blank Load.all
      else .answered (errorResponse 404 "no such endpoint")
    | .put =>
      if request.path = "/users".toList then
        if request.upper.getD (2 ^ 64 - 1) > MAX_BODY_BYTES then
          .answered (errorResponse 413 "request body too large")
        else .collecting
      else .answered (errorResponse 404 "no such endpoint")
    | .post =>
      match resetQuotaTarget request.path with
      | some email =>
        match registry.get email with
        | some entry => .found email entry
        | none => .answered (errorResponse 404 "unknown user")
      | none => .answered (errorResponse 404 "no such endpoint")
    | .other => .answered (errorResponse 404 "no such endpoint")

/-- A step of a request. `collected` is what its body came to. -/
def step (collected : Except String Bytes) (registry : UserRegistry) :
    ApiCall → Option (ApiCall × UserRegistry)
  | ⟨request, .received⟩ => some (⟨request, routed token request registry⟩, registry)
  | ⟨request, .scraping [] users _ _⟩ => some (⟨request, .answered ⟨200, .stats users⟩⟩, registry)
  | ⟨request, .scraping (id :: left) users row (load :: loads)⟩ => (registry.heap[id]?).map fun entry =>
    (⟨request, .scraping (id :: left) users (load.apply entry row) loads⟩, registry)
  | ⟨request, .scraping (id :: left) users row []⟩ => (registry.heap[id]?).map fun entry =>
    (⟨request, .scraping left (users.insert entry.email row) .blank Load.all⟩, registry)
  | ⟨request, .collecting⟩ =>
    match collected with
    | .error message => some (⟨request, .answered (errorResponse 400 ("cannot read body: " ++ message))⟩, registry)
    | .ok bytes =>
      match fromSlice bytes with
      | .error message => some (⟨request, .answered (errorResponse 400 ("invalid JSON: " ++ message))⟩, registry)
      | .ok body => some (⟨request, .replaced⟩, registry.replace hashPassword body.intoSpecs)
  | ⟨request, .replaced⟩ =>
    some (⟨request, .answered ⟨200, .users registry.index.byEmail.entries.length⟩⟩, registry)
  | ⟨request, .found email id⟩ => (registry.heap[id]?).map fun entry =>
    (⟨request, .resetting email id entry.up⟩, registry)
  | ⟨request, .resetting email id up⟩ => (registry.heap[id]?).map fun entry =>
    (⟨request, .storing email id (saturatingAdd up entry.down)⟩, registry)
  | ⟨request, .storing email id total⟩ =>
    some (⟨request, .answered ⟨200, .email email⟩⟩, registry.modify id (UserEntry.storeQuotaBase total))
  | ⟨_, .answered _⟩ => none

/-- Where a request goes: it is turned away, or it is authorized and refused or for one of the
endpoints. -/
inductive Routed (request : Request) (registry : UserRegistry) : ApiPhase → Prop where
  | unauthorized : authorized request.authorization token = false →
      Routed request registry (.answered (errorResponse 401 "invalid or missing bearer token"))
  | refuses (status message) : authorized request.authorization token = true →
      Routed request registry (.answered (errorResponse status message))
  | healthy : authorized request.authorization token = true → request.method = .get →
      Routed request registry (.answered ⟨200, .status "ok"⟩)
  | scrapes : authorized request.authorization token = true → request.method = .get →
      request.path = "/stats".toList →
      Routed request registry (.scraping (registry.index.byEmail.entries.map (·.2)) ∅ .blank Load.all)
  | collects : authorized request.authorization token = true → request.method = .put →
      request.path = "/users".toList → request.upper.getD (2 ^ 64 - 1) ≤ MAX_BODY_BYTES →
      Routed request registry .collecting
  | finds (email entry) : authorized request.authorization token = true →
      request.method = .post → resetQuotaTarget request.path = some email → registry.get email = some entry →
      Routed request registry (.found email entry)

theorem routed_routed (request : Request) (registry) :
    Routed token request registry (routed token request registry) := by
  unfold routed
  cases known : authorized request.authorization token with
  | false => exact .unauthorized known
  | true =>
    rw [if_neg (Ne.symm Bool.false_ne_true)]
    split
    · rename_i method
      by_cases health : request.path = "/healthz".toList
      · rw [if_pos health]
        exact .healthy known method
      · rw [if_neg health]
        by_cases stats : request.path = "/stats".toList
        · rw [if_pos stats]
          exact .scrapes known method stats
        · rw [if_neg stats]
          exact .refuses _ _ known
    · rename_i method
      by_cases users : request.path = "/users".toList
      · rw [if_pos users]
        by_cases large : request.upper.getD (2 ^ 64 - 1) > MAX_BODY_BYTES
        · rw [if_pos large]
          exact .refuses _ _ known
        · rw [if_neg large]
          exact .collects known method users (Nat.le_of_not_gt large)
      · rw [if_neg users]
        exact .refuses _ _ known
    · rename_i method
      split
      · rename_i email target
        split
        · rename_i entry found
          exact .finds email entry known method target found
        · exact .refuses _ _ known
      · exact .refuses _ _ known
    · exact .refuses _ _ known

/-- What a step of a request can do. -/
inductive Moved (collected : Except String Bytes) (registry : UserRegistry) :
    ApiCall → ApiCall → UserRegistry → Prop where
  | routes (request phase) : Routed token request registry phase →
      Moved collected registry ⟨request, .received⟩ ⟨request, phase⟩ registry
  | loads (request id left users row load more entry) : registry.heap[id]? = some entry →
      Moved collected registry ⟨request, .scraping (id :: left) users row (load :: more)⟩
        ⟨request, .scraping (id :: left) users (load.apply entry row) more⟩ registry
  | lists (request id left users row entry) : registry.heap[id]? = some entry →
      Moved collected registry ⟨request, .scraping (id :: left) users row []⟩
        ⟨request, .scraping left (users.insert entry.email row) .blank Load.all⟩ registry
  | reports (request users row more) :
      Moved collected registry ⟨request, .scraping [] users row more⟩ ⟨request, .answered ⟨200, .stats users⟩⟩ registry
  | rejects (request message) :
      Moved collected registry ⟨request, .collecting⟩ ⟨request, .answered (errorResponse 400 message)⟩ registry
  | replaces (request bytes body) : collected = .ok bytes → fromSlice bytes = .ok body →
      Moved collected registry ⟨request, .collecting⟩ ⟨request, .replaced⟩
        (registry.replace hashPassword body.intoSpecs)
  | counts (request) : Moved collected registry ⟨request, .replaced⟩
        ⟨request, .answered ⟨200, .users registry.index.byEmail.entries.length⟩⟩ registry
  | loadsUp (request email id entry) : registry.heap[id]? = some entry →
      Moved collected registry ⟨request, .found email id⟩ ⟨request, .resetting email id entry.up⟩ registry
  | loadsDown (request email id up entry) : registry.heap[id]? = some entry →
      Moved collected registry ⟨request, .resetting email id up⟩
        ⟨request, .storing email id (saturatingAdd up entry.down)⟩ registry
  | stores (request email id total) :
      Moved collected registry ⟨request, .storing email id total⟩ ⟨request, .answered ⟨200, .email email⟩⟩
        (registry.modify id (UserEntry.storeQuotaBase total))

theorem step_moved {collected registry registry' call after}
    (stepped : call.step hashPassword fromSlice token collected registry = some (after, registry')) :
    Moved hashPassword fromSlice token collected registry call after registry' := by
  unfold step at stepped
  split at stepped
  · cases stepped
    exact .routes _ _ (routed_routed token _ registry)
  · cases stepped
    exact .reports _ _ _ _
  · obtain ⟨entry, stored, same⟩ := Option.map_eq_some_iff.mp stepped
    cases same
    exact .loads _ _ _ _ _ _ _ entry stored
  · obtain ⟨entry, stored, same⟩ := Option.map_eq_some_iff.mp stepped
    cases same
    exact .lists _ _ _ _ _ entry stored
  · split at stepped
    · cases stepped
      exact .rejects _ _
    · rename_i bytes
      split at stepped
      · cases stepped
        exact .rejects _ _
      · rename_i body parsed
        cases stepped
        exact .replaces _ bytes body rfl parsed
  · cases stepped
    exact .counts _
  · obtain ⟨entry, stored, same⟩ := Option.map_eq_some_iff.mp stepped
    cases same
    exact .loadsUp _ _ _ entry stored
  · obtain ⟨entry, stored, same⟩ := Option.map_eq_some_iff.mp stepped
    cases same
    exact .loadsDown _ _ _ _ entry stored
  · cases stepped
    exact .stores _ _ _ _
  · cases stepped

end ApiCall

end AnyTls
