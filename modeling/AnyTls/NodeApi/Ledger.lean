import AnyTls.Library.ListUpdate
import AnyTls.NodeApi.Retirement

/-! The figures of `GET /stats`. The counters stand on the shared entries; what they mean is
said by an account book that is kept on the side, from what happens to a user: the user enters
the served set, sessions join the account by authenticating, and what they record is added. -/
namespace AnyTls

structure StatsUser where
  connections : Int64
  bytesIn : UInt64
  bytesOut : UInt64
  quotaUsed : UInt64
  quotaBytes : UInt64
  expiresUnix : Int64
deriving DecidableEq, Repr

/-- The figures that are counted, as opposed to the limits that are set. -/
def StatsUser.figures (stats : StatsUser) : Int64 × UInt64 × UInt64 × UInt64 :=
  (stats.connections, stats.bytesIn, stats.bytesOut, stats.quotaUsed)

def UserEntry.stats (entry : UserEntry) : StatsUser :=
  { connections := entry.connections, bytesIn := entry.up, bytesOut := entry.down
    quotaUsed := entry.quotaUsed, quotaBytes := entry.quotaBytes, expiresUnix := entry.expiresUnix }

/-- The counters behind the figures. -/
def UserEntry.counters (entry : UserEntry) : Int64 × UInt64 × UInt64 × UInt64 :=
  (entry.connections, entry.up, entry.down, entry.quotaBase)

theorem UserEntry.reissue_counters (entry : UserEntry) (spec rekeyed) :
    (entry.reissue spec rekeyed).counters = entry.counters := by
  cases rekeyed <;> rfl

theorem UserEntry.stats_figures {entry other : UserEntry} (same : other.counters = entry.counters) :
    other.stats.figures = entry.stats.figures := by
  simp only [counters, Prod.mk.injEq] at same
  obtain ⟨connections, up, down, base⟩ := same
  simp only [StatsUser.figures, stats, quotaUsed, connections, up, down, base]

def UserRegistry.entries (registry : UserRegistry) : List UserEntry :=
  registry.index.byEmail.entries.filterMap fun user => registry.heap[user.2]?

def collectStats (registry : UserRegistry) : AList fun _ : String => StatsUser :=
  registry.entries.foldl (fun users entry => users.insert entry.email entry.stats) ∅

theorem foldl_stats_lookup {entries : List UserEntry} {users : AList fun _ : String => StatsUser}
    {entry : UserEntry} (only : ∀ other ∈ entries, other.email = entry.email → other = entry)
    (present : entry ∈ entries ∨ users.lookup entry.email = some entry.stats) :
    (entries.foldl (fun users entry => users.insert entry.email entry.stats) users).lookup
      entry.email = some entry.stats := by
  induction entries generalizing users with
  | nil => simpa using present
  | cons first rest ih =>
    obtain ⟨head, tail⟩ := List.forall_mem_cons.mp only
    refine ih tail ?_
    by_cases same : first.email = entry.email
    · rw [head same]
      exact .inr (AList.lookup_insert _)
    · rcases present with member | found
      · rcases List.mem_cons.mp member with rfl | later
        · exact absurd rfl same
        · exact .inl later
      · exact .inr ((AList.lookup_insert_ne (Ne.symm same)).trans found)

theorem collectStats_lookup {hashPassword} {registry : UserRegistry} {users}
    (rep : registry.Represents hashPassword users) {email id} {entry : UserEntry}
    (served : registry.get email = some id) (stored : registry.heap[id]? = some entry) :
    (collectStats registry).lookup email = some entry.stats := by
  obtain rfl := rep.entry_email served stored
  refine foldl_stats_lookup ?_ (.inl ?_)
  · intro other member same
    obtain ⟨⟨email, id'⟩, listed, stored'⟩ := List.mem_filterMap.mp member
    have found := AList.mem_lookup_iff.mpr listed
    have named := rep.entry_email found stored'
    rw [← named, same] at found
    cases found.symm.trans served
    exact Option.some.inj (stored'.symm.trans stored)
  · exact List.mem_filterMap.mpr ⟨⟨_, id⟩, AList.mem_lookup_iff.mp served, stored⟩

/-! ### The account book -/

inductive LedgerEvent where
  | entered (email : String)
  | authed (session : Nat) (email : String)
  | up (session : Nat) (bytes : UInt64)
  | down (session : Nat) (bytes : UInt64)
  | reset (email : String)
deriving DecidableEq, Repr

/-- The account of one email since it last entered the served set: the sessions that
authenticated as it, what they recorded, and how much of that since the last reset. -/
structure Account where
  sessions : List Nat
  bytesIn : Nat
  bytesOut : Nat
  sinceReset : Nat
deriving DecidableEq, Repr

namespace Account

def opened : Account := ⟨[], 0, 0, 0⟩

def post (email : String) (account : Account) : LedgerEvent → Account
  | .entered entering => if entering = email then opened else account
  | .authed session as =>
    if as = email then { account with sessions := account.sessions ++ [session] } else account
  | .up session bytes =>
    if session ∈ account.sessions then
      { account with
        bytesIn := account.bytesIn + bytes.toNat
        sinceReset := account.sinceReset + bytes.toNat }
    else account
  | .down session bytes =>
    if session ∈ account.sessions then
      { account with
        bytesOut := account.bytesOut + bytes.toNat
        sinceReset := account.sinceReset + bytes.toNat }
    else account
  | .reset resetting => if resetting = email then { account with sinceReset := 0 } else account

def ofHistory (email : String) (history : List LedgerEvent) : Account :=
  history.foldl (post email) opened

/-- How many sessions of the account are alive. -/
def live (account : Account) (sessions : List (Option AuthedUser)) : Nat :=
  account.sessions.countP fun i => (sessions[i]?).join.isSome

theorem ofHistory_append (email) (history more : List LedgerEvent) :
    ofHistory email (history ++ more) = more.foldl (post email) (ofHistory email history) :=
  List.foldl_append

theorem foldl_entered (email) (account : Account) (emails : List String) :
    (emails.map LedgerEvent.entered).foldl (post email) account =
      if email ∈ emails then opened else account := by
  induction emails generalizing account with
  | nil => rfl
  | cons first rest ih =>
    rw [List.map_cons, List.foldl_cons, ih, post]
    by_cases same : first = email
    · subst same
      simp
    · simp [same, Ne.symm same]

theorem foldl_reset (email) (account : Account) (emails : List String) :
    (emails.map LedgerEvent.reset).foldl (post email) account =
      if email ∈ emails then { account with sinceReset := 0 } else account := by
  induction emails generalizing account with
  | nil => rfl
  | cons first rest ih =>
    rw [List.map_cons, List.foldl_cons, ih, post]
    by_cases same : first = email
    · subst same
      simp
    · simp [same, Ne.symm same]

theorem post_mono {email} (account : Account) {event} (stays : event ≠ .entered email) :
    account.bytesIn ≤ (account.post email event).bytesIn ∧
      account.bytesOut ≤ (account.post email event).bytesOut := by
  cases event with
  | entered entering =>
    have other : entering ≠ email := fun same => stays (by rw [same])
    simp [post, other]
  | authed session as => simp only [post]; split_ifs <;> simp
  | up session bytes => simp only [post]; split_ifs <;> simp
  | down session bytes => simp only [post]; split_ifs <;> simp
  | reset resetting => simp only [post]; split_ifs <;> simp

theorem ofHistory_mono {email history more} (stays : .entered email ∉ more) :
    (ofHistory email history).bytesIn ≤ (ofHistory email (history ++ more)).bytesIn ∧
      (ofHistory email history).bytesOut ≤ (ofHistory email (history ++ more)).bytesOut := by
  rw [ofHistory_append]
  generalize ofHistory email history = account
  induction more generalizing account with
  | nil => exact ⟨Nat.le_refl _, Nat.le_refl _⟩
  | cons event rest ih =>
    obtain ⟨head, tail⟩ := not_or.mp (List.mem_cons.not.mp stays)
    have first := post_mono account (Ne.symm head)
    have later := ih tail (account.post email event)
    exact ⟨first.1.trans later.1, first.2.trans later.2⟩

end Account

namespace Node
variable (hashPassword : String → PasswordHash)

/-- What an operation means for the accounts. Who is served, and by which entry, is read off
the registry before and after it. -/
def events (node : Node) : RegistryOp → List LedgerEvent
  | .replace specs =>
    ((node.registry.replace hashPassword specs).index.byEmail.keys.filter fun email =>
      (node.registry.get email).isNone).map .entered
  | .authenticate passwordHash now =>
    match node.registry.authenticate passwordHash now with
    | none => []
    | some (user, registry) =>
      ((user.email registry).map (LedgerEvent.authed node.sessions.length)).toList
  | .recordUp session bytes => [.up session bytes]
  | .recordDown session bytes => [.down session bytes]
  | .resetQuota id =>
    (node.registry.index.byEmail.keys.filter fun email =>
      decide (node.registry.get email = some id)).map .reset
  | .drop _ => []

def history : Node → List RegistryOp → List LedgerEvent
  | _, [] => []
  | node, op :: rest =>
    node.events hashPassword op ++
      match node.step hashPassword op with
      | none => []
      | some next => history next rest

/-- The email whose counters an operation is for. -/
def touches (node : Node) : RegistryOp → Option String
  | .replace _ => none
  | .authenticate passwordHash now =>
    (node.registry.authenticate passwordHash now).bind fun authed => authed.1.email authed.2
  | .recordUp session _ => (node.session session).bind (·.email node.registry)
  | .recordDown session _ => (node.session session).bind (·.email node.registry)
  | .resetQuota id => (node.registry.heap[id]?).map (·.email)
  | .drop session => (node.session session).bind (·.email node.registry)

end Node

/-- The counters of an entry are the figures of an account. The totals are equal modulo
`2 ^ 64` in any case; the quota base is exact as long as they are below. -/
structure Balanced (sessions : List (Option AuthedUser)) (id : EntryId) (entry : UserEntry)
    (account : Account) : Prop where
  members : ∀ {i user}, (sessions[i]?).join = some user → (i ∈ account.sessions ↔ user.entry = id)
  bounded : ∀ i ∈ account.sessions, i < sessions.length
  distinct : account.sessions.Nodup
  bytesIn : entry.up = UInt64.ofNat account.bytesIn
  bytesOut : entry.down = UInt64.ofNat account.bytesOut
  connections : entry.connections = Int64.ofNat (account.live sessions)
  window : account.bytesIn + account.bytesOut < 2 ^ 64 →
    entry.quotaBase.toNat + account.sinceReset = account.bytesIn + account.bytesOut

theorem saturatingAdd_exact {a b} (small : a.toNat + b.toNat < 2 ^ 64) :
    (saturatingAdd a b).toNat = a.toNat + b.toNat := by
  rw [saturatingAdd_toNat]
  omega

namespace Balanced
variable {sessions : List (Option AuthedUser)} {id : EntryId} {entry : UserEntry} {account : Account}

theorem of_counters (balanced : Balanced sessions id entry account) {other}
    (same : other.counters = entry.counters) : Balanced sessions id other account := by
  simp only [UserEntry.counters, Prod.mk.injEq] at same
  obtain ⟨connections, up, down, base⟩ := same
  exact ⟨balanced.members, balanced.bounded, balanced.distinct, up.trans balanced.bytesIn,
    down.trans balanced.bytesOut, connections.trans balanced.connections, base ▸ balanced.window⟩

theorem totals (balanced : Balanced sessions id entry account)
    (small : account.bytesIn + account.bytesOut < 2 ^ 64) :
    entry.up.toNat = account.bytesIn ∧ entry.down.toNat = account.bytesOut := by
  rw [balanced.bytesIn, balanced.bytesOut, UInt64.toNat_ofNat', UInt64.toNat_ofNat']
  omega

theorem quotaUsed (balanced : Balanced sessions id entry account)
    (small : account.bytesIn + account.bytesOut < 2 ^ 64) :
    entry.quotaUsed.toNat = account.sinceReset := by
  obtain ⟨up, down⟩ := balanced.totals small
  have window := balanced.window small
  have total : (saturatingAdd entry.up entry.down).toNat = account.bytesIn + account.bytesOut := by
    rw [saturatingAdd_exact (by omega), up, down]
  rw [UserEntry.quotaUsed, saturatingSub, UInt64.toNat_ofNat', total]
  omega

theorem recordUp (balanced : Balanced sessions id entry account) (bytes) :
    Balanced sessions id (entry.recordUp bytes)
      { account with
        bytesIn := account.bytesIn + bytes.toNat
        sinceReset := account.sinceReset + bytes.toNat } where
  members := balanced.members
  bounded := balanced.bounded
  distinct := balanced.distinct
  bytesIn := by simp [UserEntry.recordUp, balanced.bytesIn, UInt64.ofNat_add]
  bytesOut := balanced.bytesOut
  connections := balanced.connections
  window small := by
    have window := balanced.window (by simp only at small; omega)
    simp only [UserEntry.recordUp]
    omega

theorem recordDown (balanced : Balanced sessions id entry account) (bytes) :
    Balanced sessions id (entry.recordDown bytes)
      { account with
        bytesOut := account.bytesOut + bytes.toNat
        sinceReset := account.sinceReset + bytes.toNat } where
  members := balanced.members
  bounded := balanced.bounded
  distinct := balanced.distinct
  bytesIn := balanced.bytesIn
  bytesOut := by simp [UserEntry.recordDown, balanced.bytesOut, UInt64.ofNat_add]
  connections := balanced.connections
  window small := by
    have window := balanced.window (by simp only at small; omega)
    simp only [UserEntry.recordDown]
    omega

theorem resetQuota (balanced : Balanced sessions id entry account) :
    Balanced sessions id entry.resetQuota { account with sinceReset := 0 } where
  members := balanced.members
  bounded := balanced.bounded
  distinct := balanced.distinct
  bytesIn := balanced.bytesIn
  bytesOut := balanced.bytesOut
  connections := balanced.connections
  window small := by
    obtain ⟨up, down⟩ := balanced.totals small
    rw [UserEntry.resetQuota, saturatingAdd_exact (by simp only at small; omega), up, down]
    rfl

/-- A session enters: the account it joins counts it, and no other account changes. -/
theorem enter (balanced : Balanced sessions id entry account) (user : AuthedUser) :
    Balanced (sessions ++ [some user]) id
      (if user.entry = id then { entry with connections := entry.connections + 1 } else entry)
      (if user.entry = id then { account with sessions := account.sessions ++ [sessions.length] }
        else account) := by
  have fresh : sessions.length ∉ account.sessions := fun member =>
    Nat.lt_irrefl _ (balanced.bounded _ member)
  have earlier : ∀ i ∈ account.sessions, (sessions ++ [some user])[i]? = sessions[i]? :=
    fun i member => List.getElem?_append_left (balanced.bounded i member)
  have counted : account.live (sessions ++ [some user]) = account.live sessions :=
    List.countP_congr fun i member => by rw [earlier i member]
  have members : ∀ {i other}, ((sessions ++ [some user])[i]?).join = some other →
      ((i ∈ account.sessions ∨ i = sessions.length ∧ user.entry = id) ↔ other.entry = id) := by
    intro i other found
    rcases Nat.lt_trichotomy i sessions.length with old | rfl | beyond
    · rw [List.getElem?_append_left old] at found
      simp [balanced.members found, Nat.ne_of_lt old]
    · simp only [List.getElem?_concat_length, Option.join_some, Option.some.injEq] at found
      simp [fresh, found]
    · rw [List.getElem?_eq_none (by simp; omega)] at found
      cases found
  split_ifs with joins
  · refine ⟨?_, ?_, ?_, balanced.bytesIn, balanced.bytesOut, ?_, balanced.window⟩
    · intro i other found
      simp [← members found, joins]
    · intro i member
      rcases List.mem_append.mp member with old | new
      · simp only [List.length_append]
        exact Nat.lt_add_right _ (balanced.bounded i old)
      · simp [List.mem_singleton.mp new]
    · rw [List.nodup_append]
      refine ⟨balanced.distinct, List.nodup_singleton _, ?_⟩
      intro i member j new same
      rw [List.mem_singleton.mp new] at same
      exact fresh (same ▸ member)
    · have one : Account.live { account with sessions := account.sessions ++ [sessions.length] }
          (sessions ++ [some user]) = account.live sessions + 1 := by
        rw [← counted]
        simp [Account.live, List.countP_append]
      rw [one, Int64.ofNat_add, ← balanced.connections]
      rfl
  · refine ⟨?_, ?_, balanced.distinct, balanced.bytesIn, balanced.bytesOut, ?_, balanced.window⟩
    · intro i other found
      simp [← members found, joins]
    · intro i member
      simp only [List.length_append]
      exact Nat.lt_add_right _ (balanced.bounded i member)
    · rw [counted, balanced.connections]

/-- A session is dropped: only the account it belongs to counts one less. -/
theorem leave (balanced : Balanced sessions id entry account) {i user}
    (alive : (sessions[i]?).join = some user) :
    Balanced (sessions.set i none) id
      (if user.entry = id then { entry with connections := entry.connections - 1 } else entry)
      account := by
  have after : ∀ j, ((sessions.set i none)[j]?).join =
      if j = i then none else (sessions[j]?).join := by
    intro j
    rw [List.getElem?_set]
    by_cases same : i = j
    · subst same
      split_ifs <;> simp_all
    · simp [same, Ne.symm same]
  have members : ∀ {j other}, ((sessions.set i none)[j]?).join = some other →
      (j ∈ account.sessions ↔ other.entry = id) := by
    intro j other found
    rw [after] at found
    split_ifs at found
    exact balanced.members found
  have bounded : ∀ j ∈ account.sessions, j < (sessions.set i none).length := by
    intro j member
    rw [List.length_set]
    exact balanced.bounded j member
  have counted : account.live sessions =
      account.live (sessions.set i none) + if i ∈ account.sessions then 1 else 0 := by
    have met : (sessions[i]?).join.isSome = true := by rw [alive]; rfl
    simp only [Account.live, after, apply_ite Option.isSome, Option.isSome_none]
    exact ListUpdate.countP_except (p := fun j => (sessions[j]?).join.isSome) balanced.distinct met
  have belongs := balanced.members alive
  split_ifs with own
  · refine ⟨members, bounded, balanced.distinct, balanced.bytesIn, balanced.bytesOut, ?_, balanced.window⟩
    rw [if_pos (belongs.mpr own)] at counted
    simp only [balanced.connections, counted, Int64.ofNat_add]
    exact Int64.add_sub_cancel _ _
  · refine ⟨members, bounded, balanced.distinct, balanced.bytesIn, balanced.bytesOut, ?_, balanced.window⟩
    rw [if_neg fun member => own (belongs.mp member)] at counted
    rw [balanced.connections, counted, Nat.add_zero]

end Balanced

/-- The registry agrees with the account book. -/
structure Node.Kept (hashPassword : String → PasswordHash) (node : Node)
    (history : List LedgerEvent) : Prop where
  represents : ∃ users, node.registry.Represents hashPassword users
  allocated : ∀ {i user}, node.session i = some user → user.entry < node.registry.heap.length
  accounts : ∀ {email id entry}, node.registry.get email = some id →
    node.registry.heap[id]? = some entry →
      Balanced node.sessions id entry (Account.ofHistory email history)

namespace Node.Kept
variable {hashPassword : String → PasswordHash} {node next : Node} {history : List LedgerEvent}

theorem new : Kept hashPassword Node.new [] where
  represents := ⟨∅, .empty []⟩
  allocated found := by simp [Node.new, Node.session] at found
  accounts served := by simp [Node.new, UserRegistry.new, UserRegistry.get] at served

theorem stored_of_modify {registry : UserRegistry} {target id f entry}
    (stored : (registry.modify target f).heap[id]? = some entry) :
    ∃ before, registry.heap[id]? = some before ∧ entry = if target = id then f before else before := by
  cases placed : registry.heap[id]? with
  | none => simp [UserRegistry.modify, List.getElem?_modify, placed] at stored
  | some before =>
    rw [UserRegistry.modify_heap_self id placed, Option.some.injEq] at stored
    exact ⟨before, rfl, stored.symm⟩

/-- An operation on one entry: what it does to the entry and to the sessions, `account` does
to the account of the email that the entry serves. -/
theorem modify (kept : Kept hashPassword node history) {target f sessions more}
    (neutral : UserEntry.Neutral f)
    (allocated : ∀ {i : Nat} {user : AuthedUser}, (sessions[i]?).join = some user →
      user.entry < node.registry.heap.length)
    (accounts : ∀ {email id entry}, node.registry.get email = some id →
      node.registry.heap[id]? = some entry →
      Balanced node.sessions id entry (Account.ofHistory email history) →
      Balanced sessions id (if target = id then f entry else entry)
        (Account.ofHistory email (history ++ more))) :
    Kept hashPassword ⟨node.registry.modify target f, sessions⟩ (history ++ more) where
  represents := by
    obtain ⟨users, rep⟩ := kept.represents
    exact ⟨users, rep.modify target neutral⟩
  allocated found := by simpa [UserRegistry.modify] using allocated found
  accounts {email id entry} served stored := by
    obtain ⟨before, placed, rfl⟩ := stored_of_modify stored
    exact accounts served placed (kept.accounts served placed)

theorem recordUp (kept : Kept hashPassword node history) {i user} (alive : node.session i = some user)
    (bytes) :
    Kept hashPassword ⟨user.recordUp node.registry bytes, node.sessions⟩ (history ++ [.up i bytes]) := by
  refine kept.modify (fun _ => ⟨rfl, rfl, rfl, rfl, rfl⟩) kept.allocated ?_
  intro email id entry served stored balanced
  rw [Account.ofHistory_append]
  simp only [List.foldl_cons, List.foldl_nil, Account.post, balanced.members alive]
  split_ifs
  · exact balanced.recordUp bytes
  · exact balanced

theorem recordDown (kept : Kept hashPassword node history) {i user} (alive : node.session i = some user)
    (bytes) :
    Kept hashPassword ⟨user.recordDown node.registry bytes, node.sessions⟩
      (history ++ [.down i bytes]) := by
  refine kept.modify (fun _ => ⟨rfl, rfl, rfl, rfl, rfl⟩) kept.allocated ?_
  intro email id entry served stored balanced
  rw [Account.ofHistory_append]
  simp only [List.foldl_cons, List.foldl_nil, Account.post, balanced.members alive]
  split_ifs
  · exact balanced.recordDown bytes
  · exact balanced

theorem resetQuota (kept : Kept hashPassword node history) (target) :
    Kept hashPassword ⟨node.registry.modify target UserEntry.resetQuota, node.sessions⟩
      (history ++ node.events hashPassword (.resetQuota target)) := by
  refine kept.modify (fun _ => ⟨rfl, rfl, rfl, rfl, rfl⟩) kept.allocated ?_
  intro email id entry served stored balanced
  have listed : email ∈ node.registry.index.byEmail.keys :=
    AList.mem_keys.mp (AList.lookup_isSome.mp (by rw [← UserRegistry.get, served]; rfl))
  have own : (email ∈ node.registry.index.byEmail.keys.filter fun email =>
      decide (node.registry.get email = some target)) ↔ target = id := by
    simp [listed, served, eq_comm]
  rw [Account.ofHistory_append, Node.events, Account.foldl_reset]
  simp only [own]
  split_ifs
  · exact balanced.resetQuota
  · exact balanced

theorem drop (kept : Kept hashPassword node history) {i user} (alive : node.session i = some user) :
    Kept hashPassword ⟨user.drop node.registry, node.sessions.set i none⟩ (history ++ []) := by
  refine kept.modify (fun _ => ⟨rfl, rfl, rfl, rfl, rfl⟩) ?_ ?_
  · intro j other found
    rw [List.getElem?_set] at found
    split_ifs at found
    · simp at found
    · simp at found
    · exact kept.allocated found
  · intro email id entry served stored balanced
    rw [List.append_nil]
    exact balanced.leave alive

theorem authenticate (kept : Kept hashPassword node history) {passwordHash now user registry}
    (authed : node.registry.authenticate passwordHash now = some (user, registry)) :
    Kept hashPassword ⟨registry, node.sessions ++ [some user]⟩
      (history ++ node.events hashPassword (.authenticate passwordHash now)) := by
  obtain ⟨users, rep⟩ := kept.represents
  obtain ⟨entered, found, stored, -, -, rfl⟩ := authenticate_eq authed
  obtain ⟨email, listed⟩ : ∃ email, node.registry.get email = some user.entry := by
    unfold UserRegistry.lookupHash at found
    split_ifs at found with sized
    obtain ⟨email, -, listed⟩ := (rep.keyed _ _).mp found
    exact ⟨email, listed⟩
  have named := rep.entry_email listed stored
  have event : node.events hashPassword (.authenticate passwordHash now) =
      [.authed node.sessions.length email] := by
    simp only [Node.events, authed, AuthedUser.email]
    rw [UserRegistry.connect, UserRegistry.modify_heap_self _ stored]
    simp [named]
  rw [event]
  refine kept.modify (fun _ => ⟨rfl, rfl, rfl, rfl, rfl⟩) ?_ ?_
  · intro i other found
    rcases Nat.lt_trichotomy i node.sessions.length with old | rfl | beyond
    · rw [List.getElem?_append_left old] at found
      exact kept.allocated found
    · simp only [List.getElem?_concat_length, Option.join_some, Option.some.injEq] at found
      exact found ▸ (List.getElem?_eq_some_iff.mp stored).1
    · rw [List.getElem?_eq_none (by simp; omega)] at found
      cases found
  · intro email' id entry served _ balanced
    have own : email = email' ↔ user.entry = id := by
      constructor
      · rintro rfl
        exact Option.some.inj (listed.symm.trans served)
      · rintro rfl
        exact rep.email_unique listed served
    rw [Account.ofHistory_append]
    simp only [List.foldl_cons, List.foldl_nil, Account.post, own]
    exact balanced.enter user

/-- A user that stays served stays on its entry, with its counters. -/
theorem replace_counters (kept : Kept hashPassword node history) {specs}
    (distinct : (specs.map (·.email)).Nodup) {email id id' entry}
    (served : node.registry.get email = some id) (stored : node.registry.heap[id]? = some entry)
    (serves : (node.registry.replace hashPassword specs).get email = some id') :
    id' = id ∧ ∃ entry', (node.registry.replace hashPassword specs).heap[id]? = some entry' ∧
      entry'.counters = entry.counters := by
  obtain ⟨users, rep⟩ := kept.represents
  obtain ⟨spec, _, enrolled, -⟩ := (UserRegistry.replace_represents rep distinct).live serves
  have same := UserRegistry.replace_reuses rep distinct served enrolled
  have becomes := UserRegistry.replace_heap rep distinct stored
  have listed : node.registry.index.byEmail.lookup email = some id := served
  rw [UserRegistry.fate, rep.entry_email served stored, if_pos listed, enrolled] at becomes
  exact ⟨Option.some.inj (serves.symm.trans same), _, becomes, entry.reissue_counters _ _⟩

theorem replace (kept : Kept hashPassword node history) {specs} (distinct : (specs.map (·.email)).Nodup) :
    Kept hashPassword { node with registry := node.registry.replace hashPassword specs }
      (history ++ node.events hashPassword (.replace specs)) := by
  obtain ⟨users, rep⟩ := kept.represents
  refine ⟨⟨_, UserRegistry.replace_represents rep distinct⟩, ?_, ?_⟩
  · intro i user alive
    have placed := List.getElem?_eq_getElem (kept.allocated alive)
    exact (List.getElem?_eq_some_iff.mp (UserRegistry.replace_heap rep distinct placed)).1
  · intro email id entry serves stored
    have listed : email ∈ (node.registry.replace hashPassword specs).index.byEmail.keys :=
      AList.mem_keys.mp (AList.lookup_isSome.mp (by rw [← UserRegistry.get, serves]; rfl))
    rw [Account.ofHistory_append, Node.events, Account.foldl_entered]
    cases before : node.registry.get email with
    | none =>
      obtain ⟨above, spec, fresh⟩ := UserRegistry.replace_admits rep before serves
      cases stored.symm.trans fresh
      rw [if_pos (by simp [listed, before])]
      -- the entry is younger than every session
      refine ⟨fun {i user} alive => ?_, by simp [Account.opened], List.nodup_nil, rfl, rfl, rfl,
        fun _ => rfl⟩
      have older := kept.allocated alive
      simp only [Account.opened, List.not_mem_nil, false_iff]
      exact Nat.ne_of_lt (Nat.lt_of_lt_of_le older above)
    | some id' =>
      obtain ⟨_, entry', -, -, placed, -⟩ := rep.live before
      obtain ⟨rfl, entry'', placed', same⟩ := kept.replace_counters distinct before placed serves
      cases stored.symm.trans placed'
      rw [if_neg (by simp [before])]
      exact (kept.accounts before placed).of_counters same

theorem step (kept : Kept hashPassword node history) {op}
    (distinct : ∀ specs ∈ op.specs?, (specs.map (·.email)).Nodup)
    (stepped : node.step hashPassword op = some next) :
    Kept hashPassword next (history ++ node.events hashPassword op) := by
  cases op with
  | replace specs => cases stepped; exact kept.replace (distinct specs rfl)
  | authenticate passwordHash now =>
    simp only [Node.step] at stepped
    split at stepped
    · rename_i denied
      cases stepped
      simpa [Node.events, denied] using kept
    · rename_i user registry authed
      cases stepped
      exact kept.authenticate authed
  | recordUp i bytes =>
    obtain ⟨user, alive, rfl⟩ := Option.map_eq_some_iff.mp stepped
    exact kept.recordUp alive bytes
  | recordDown i bytes =>
    obtain ⟨user, alive, rfl⟩ := Option.map_eq_some_iff.mp stepped
    exact kept.recordDown alive bytes
  | resetQuota id => cases stepped; exact kept.resetQuota id
  | drop i =>
    obtain ⟨user, alive, rfl⟩ := Option.map_eq_some_iff.mp stepped
    exact kept.drop alive

theorem run {ops} (kept : Kept hashPassword node history) (distinct : DistinctEmails ops)
    (path : Transition.run (Node.step hashPassword) node ops = some next) :
    Kept hashPassword next (history ++ node.history hashPassword ops) := by
  induction ops generalizing node history with
  | nil => cases path; simpa [Node.history] using kept
  | cons op rest ih =>
    obtain ⟨middle, stepped, onward⟩ := Transition.run_cons_some.mp path
    obtain ⟨now, later⟩ := List.forall_mem_cons.mp distinct
    have final := ih (kept.step now stepped) later onward
    simpa only [Node.history, stepped, List.append_assoc] using final

theorem modify_other (kept : Kept hashPassword node history) {target id f email entry}
    (served : node.registry.get email = some id) (stored : node.registry.heap[id]? = some entry)
    (apart : (node.registry.heap[target]?).map (·.email) ≠ some email) :
    (node.registry.modify target f).heap[id]? = some entry := by
  obtain ⟨users, rep⟩ := kept.represents
  have other : target ≠ id := by
    rintro rfl
    exact apart (by simp [stored, rep.entry_email served stored])
  rw [UserRegistry.modify_heap_self id stored, if_neg other]

/-- An operation on other emails leaves the counters of a user that stays served. -/
theorem step_counters (kept : Kept hashPassword node history) {op}
    (distinct : ∀ specs ∈ op.specs?, (specs.map (·.email)).Nodup)
    (stepped : node.step hashPassword op = some next) {email id id' entry}
    (served : node.registry.get email = some id) (stored : node.registry.heap[id]? = some entry)
    (serves : next.registry.get email = some id') (apart : node.touches op ≠ some email) :
    ∃ entry', next.registry.heap[id']? = some entry' ∧ entry'.counters = entry.counters := by
  cases op with
  | replace specs =>
    cases stepped
    obtain ⟨rfl, unchanged⟩ := kept.replace_counters (distinct specs rfl) served stored serves
    exact unchanged
  | authenticate passwordHash now =>
    simp only [Node.step] at stepped
    split at stepped
    · cases stepped
      cases served.symm.trans serves
      exact ⟨entry, stored, rfl⟩
    · rename_i user registry authed
      cases stepped
      obtain ⟨entered, -, placed, -, -, rfl⟩ := authenticate_eq authed
      cases served.symm.trans serves
      refine ⟨entry, kept.modify_other served stored ?_, rfl⟩
      simpa [Node.touches, authed, AuthedUser.email, UserRegistry.connect,
        UserRegistry.modify_heap_self _ placed, placed] using apart
  | recordUp i bytes =>
    obtain ⟨user, alive, rfl⟩ := Option.map_eq_some_iff.mp stepped
    cases served.symm.trans serves
    simp only [Node.touches, alive, Option.bind_some] at apart
    exact ⟨entry, kept.modify_other served stored apart, rfl⟩
  | recordDown i bytes =>
    obtain ⟨user, alive, rfl⟩ := Option.map_eq_some_iff.mp stepped
    cases served.symm.trans serves
    simp only [Node.touches, alive, Option.bind_some] at apart
    exact ⟨entry, kept.modify_other served stored apart, rfl⟩
  | resetQuota target =>
    cases stepped
    cases served.symm.trans serves
    exact ⟨entry, kept.modify_other served stored apart, rfl⟩
  | drop i =>
    obtain ⟨user, alive, rfl⟩ := Option.map_eq_some_iff.mp stepped
    cases served.symm.trans serves
    simp only [Node.touches, alive, Option.bind_some] at apart
    exact ⟨entry, kept.modify_other served stored apart, rfl⟩

end Node.Kept

/-! ### The ledger is exact -/

section
variable {hashPassword : String → PasswordHash} {node next : Node}

/-- No replace of `ops` leaves the email out. -/
def StaysServed (hashPassword : String → PasswordHash) (email : String) (ops : List RegistryOp) : Prop :=
  ∀ op ∈ ops, ∀ specs ∈ op.specs?, ((userSet hashPassword specs).lookup email).isSome = true

theorem history_append {first second middle}
    (path : Transition.run (Node.step hashPassword) node first = some middle) :
    node.history hashPassword (first ++ second) =
      node.history hashPassword first ++ middle.history hashPassword second := by
  induction first generalizing node with
  | nil => cases path; rfl
  | cons op rest ih =>
    obtain ⟨next, stepped, onward⟩ := Transition.run_cons_some.mp path
    simp only [List.cons_append, Node.history, stepped, ih onward, List.append_assoc]

theorem step_stays {history} (kept : node.Kept hashPassword history) {op}
    (distinct : ∀ specs ∈ op.specs?, (specs.map (·.email)).Nodup)
    (stepped : node.step hashPassword op = some next) {email id}
    (served : node.registry.get email = some id)
    (stays : ∀ specs ∈ op.specs?, ((userSet hashPassword specs).lookup email).isSome = true) :
    next.registry.get email = some id ∧ .entered email ∉ node.events hashPassword op := by
  obtain ⟨users, rep⟩ := kept.represents
  have evolves := Node.step_evolves stepped
  cases op with
  | replace specs =>
    cases stepped
    obtain ⟨spec, enrolled⟩ := Option.isSome_iff_exists.mp (stays specs rfl)
    refine ⟨UserRegistry.replace_reuses rep (distinct specs rfl) served enrolled, ?_⟩
    simp [Node.events, served]
  | authenticate passwordHash now =>
    obtain ⟨_, _, -, same⟩ := evolves
    refine ⟨by rw [same]; exact served, ?_⟩
    simp only [Node.events]
    split <;> simp
  | recordUp i bytes =>
    obtain ⟨_, _, -, same⟩ := evolves
    exact ⟨by rw [same]; exact served, by simp [Node.events]⟩
  | recordDown i bytes =>
    obtain ⟨_, _, -, same⟩ := evolves
    exact ⟨by rw [same]; exact served, by simp [Node.events]⟩
  | resetQuota target =>
    obtain ⟨_, _, -, same⟩ := evolves
    exact ⟨by rw [same]; exact served, by simp [Node.events]⟩
  | drop i =>
    obtain ⟨_, _, -, same⟩ := evolves
    exact ⟨by rw [same]; exact served, by simp [Node.events]⟩

theorem run_stays {history ops} (kept : node.Kept hashPassword history) (distinct : DistinctEmails ops)
    (path : Transition.run (Node.step hashPassword) node ops = some next) {email id}
    (served : node.registry.get email = some id) (stays : StaysServed hashPassword email ops) :
    next.registry.get email = some id ∧ .entered email ∉ node.history hashPassword ops := by
  induction ops generalizing node history with
  | nil => cases path; exact ⟨served, List.not_mem_nil⟩
  | cons op rest ih =>
    obtain ⟨middle, stepped, onward⟩ := Transition.run_cons_some.mp path
    obtain ⟨now, later⟩ := List.forall_mem_cons.mp distinct
    obtain ⟨staysNow, staysLater⟩ := List.forall_mem_cons.mp stays
    obtain ⟨served', quiet⟩ := step_stays kept now stepped served staysNow
    obtain ⟨final, quiet'⟩ := ih (kept.step now stepped) later onward served' staysLater
    refine ⟨final, ?_⟩
    simp only [Node.history, stepped, List.mem_append, not_or]
    exact ⟨quiet, quiet'⟩

/-- The figures reported for a served user are those of its account. The totals only grow
while the user stays served, and an operation on other emails changes none of the figures. -/
theorem ledger_exact {ops : List RegistryOp} (distinct : DistinctEmails ops)
    (reached : Transition.run (Node.step hashPassword) Node.new ops = some node) {email : String}
    (served : (node.registry.get email).isSome = true) {account : Account}
    (posted : account = Account.ofHistory email (Node.new.history hashPassword ops))
    (small : account.bytesIn + account.bytesOut < 2 ^ 64) :
    ∃ stats, (collectStats node.registry).lookup email = some stats ∧
      stats.bytesIn.toNat = account.bytesIn ∧ stats.bytesOut.toNat = account.bytesOut ∧
      stats.connections = Int64.ofNat (account.live node.sessions) ∧
      stats.quotaUsed.toNat = account.sinceReset ∧
      (∀ earlier later middle earlierStats, ops = earlier ++ later →
        Transition.run (Node.step hashPassword) Node.new earlier = some middle →
        StaysServed hashPassword email later →
        (collectStats middle.registry).lookup email = some earlierStats →
        (middle.registry.get email).isSome = true →
          earlierStats.bytesIn ≤ stats.bytesIn ∧ earlierStats.bytesOut ≤ stats.bytesOut) ∧
      ∀ op next, node.step hashPassword op = some next →
        (∀ specs ∈ op.specs?, (specs.map (·.email)).Nodup) → node.touches op ≠ some email →
        (next.registry.get email).isSome = true →
          ∃ after, (collectStats next.registry).lookup email = some after ∧
            after.figures = stats.figures := by
  have kept : node.Kept hashPassword (Node.new.history hashPassword ops) :=
    Node.Kept.new.run distinct reached
  obtain ⟨users, rep⟩ := kept.represents
  obtain ⟨id, served⟩ := Option.isSome_iff_exists.mp served
  obtain ⟨_, entry, -, -, stored, -⟩ := rep.live served
  have balanced := kept.accounts served stored
  rw [← posted] at balanced
  obtain ⟨up, down⟩ := balanced.totals small
  refine ⟨entry.stats, collectStats_lookup rep served stored, up, down, balanced.connections,
    balanced.quotaUsed small, ?_, ?_⟩
  · rintro earlier later middle earlierStats rfl begun stays reported servedBefore
    obtain ⟨first, second⟩ := List.forall_mem_append.mp distinct
    have keptBefore : middle.Kept hashPassword (Node.new.history hashPassword earlier) :=
      Node.Kept.new.run first begun
    obtain ⟨users', rep'⟩ := keptBefore.represents
    obtain ⟨id', servedBefore⟩ := Option.isSome_iff_exists.mp servedBefore
    obtain ⟨_, entry', -, -, stored', -⟩ := rep'.live servedBefore
    cases reported.symm.trans (collectStats_lookup rep' servedBefore stored')
    obtain ⟨middle', begun', onward⟩ := Transition.run_append_some.mp reached
    cases begun.symm.trans begun'
    obtain ⟨-, quiet⟩ := run_stays keptBefore second onward servedBefore stays
    rw [history_append begun] at posted
    have balanced' := keptBefore.accounts servedBefore stored'
    obtain ⟨growsIn, growsOut⟩ : (Account.ofHistory email (Node.new.history hashPassword earlier)).bytesIn ≤
          account.bytesIn ∧
        (Account.ofHistory email (Node.new.history hashPassword earlier)).bytesOut ≤ account.bytesOut := by
      rw [posted]
      exact Account.ofHistory_mono quiet
    obtain ⟨up', down'⟩ := balanced'.totals (by omega)
    rw [UInt64.le_iff_toNat_le, UInt64.le_iff_toNat_le]
    simp only [UserEntry.stats, up, down, up', down']
    exact ⟨growsIn, growsOut⟩
  · intro op next stepped distinctNow apart serves
    obtain ⟨id', serves⟩ := Option.isSome_iff_exists.mp serves
    obtain ⟨entry', stored', same⟩ :=
      kept.step_counters distinctNow stepped served stored serves apart
    obtain ⟨_, rep'⟩ := (kept.step distinctNow stepped).represents
    exact ⟨entry'.stats, collectStats_lookup rep' serves stored', UserEntry.stats_figures same⟩

end

/-- A session of `a@x` goes on recording after its user got another password, and the quota
window of `a@x` is reset in between; `b@x` leaves and returns. -/
def rekeyedTraffic : List RegistryOp :=
  twoUsers ++
    [RegistryOp.authenticate (lengthHash "four").val 5, .recordUp 0 10, .authenticate (lengthHash "two").val 5,
      .recordDown 1 3, .replace [unlimited "a@x" "three"], .recordDown 0 5, .resetQuota 0,
      .recordUp 0 7, .replace [unlimited "a@x" "three", unlimited "b@x" "two"], .recordUp 1 2,
      .authenticate (lengthHash "three").val 6, .drop 0]

theorem rekeyedTraffic_reported :
    ∃ node stats, Transition.run (Node.step lengthHash) Node.new rekeyedTraffic = some node ∧
      (collectStats node.registry).lookup "a@x" = some stats ∧ stats.bytesIn.toNat = 17 ∧
      stats.bytesOut.toNat = 5 ∧ stats.connections = 1 ∧ stats.quotaUsed.toNat = 7 := by
  have reached : Transition.run (Node.step lengthHash) Node.new rekeyedTraffic =
    some _ := rfl
  have posted : (⟨[0, 2], 17, 5, 7⟩ : Account) =
      Account.ofHistory "a@x" (Node.new.history lengthHash rekeyedTraffic) := by decide
  obtain ⟨stats, reported, bytesIn, bytesOut, connections, quotaUsed, -⟩ :=
    ledger_exact (by decide) reached rfl posted (by decide)
  exact ⟨_, stats, reached, reported, bytesIn, bytesOut, connections, quotaUsed⟩

end AnyTls
