import AnyTls.Library.Transition
import AnyTls.NodeApi.Replace

/-! Retirement of sessions. A session remembers an entry and a generation; it is
retired by the first replace whose user set no longer gives its email the hash it
authenticated with, and by nothing else. -/
namespace AnyTls

/-- Accounting on an entry: the fields that decide revocation keep their values. -/
def UserEntry.Neutral (f : UserEntry → UserEntry) : Prop :=
  ∀ entry, (f entry).email = entry.email ∧ (f entry).generation = entry.generation ∧
    (f entry).revoked = entry.revoked ∧ (f entry).quotaBytes = entry.quotaBytes ∧
    (f entry).expiresUnix = entry.expiresUnix

namespace UserRegistry
variable {hashPassword : String → PasswordHash} {registry : UserRegistry} {users : UserSet}

theorem modify_heap_self {id f entry} (other) (stored : registry.heap[other]? = some entry) :
    (registry.modify id f).heap[other]? = some (if id = other then f entry else entry) := by
  simp [modify, List.getElem?_modify, stored]

theorem Represents.modify (rep : registry.Represents hashPassword users) (id) {f}
    (neutral : UserEntry.Neutral f) :
    (registry.modify id f).Represents hashPassword users where
  known := rep.known
  keyed := rep.keyed
  live {email other} listed := by
    obtain ⟨spec, entry, enrolled, named, stored, serves⟩ := rep.live listed
    refine ⟨spec, _, enrolled, named, modify_heap_self other stored, ?_⟩
    split_ifs
    · obtain ⟨sameEmail, -, sameRevoked, sameQuota, sameExpiry⟩ := neutral entry
      exact ⟨sameEmail.trans serves.1, sameRevoked.trans serves.2.1,
        sameQuota.trans serves.2.2.1, sameExpiry.trans serves.2.2.2⟩
    · exact serves

/-- Where a session stands: its entry has been re-keyed `bumps` times since, and
the session is retired exactly if the entry was re-keyed or revoked. While it is
not, its email still has the hash it authenticated with. -/
structure Standing (hashPassword : String → PasswordHash) (registry : UserRegistry)
    (users : UserSet) (user : AuthedUser) (email : String) (hash : PasswordHash)
    (retired : Prop) (entry : UserEntry) (bumps : Nat) : Prop where
  stored : registry.heap[user.entry]? = some entry
  named : entry.email = email
  counted : entry.generation = user.generation + UInt64.ofNat bumps
  expired : retired → entry.revoked = true ∨ 0 < bumps
  current : ¬ retired → bumps = 0 ∧ entry.revoked = false ∧
    registry.index.byEmail.lookup email = some user.entry ∧
    users.hashOf hashPassword email = some hash

namespace Standing
variable {user : AuthedUser} {email : String} {hash : PasswordHash} {retired : Prop}
  {entry : UserEntry} {bumps : Nat}

theorem start (rep : registry.Represents hashPassword users) {id}
    (found : registry.index.byHash.lookup hash = some id) (stored : registry.heap[id]? = some entry) :
    Standing hashPassword registry users ⟨id, entry.generation⟩ entry.email hash False entry 0 := by
  obtain ⟨email, hashed, listed⟩ := (rep.keyed hash id).mp found
  obtain ⟨_, entry', -, -, stored', serves⟩ := rep.live listed
  cases stored.symm.trans stored'
  have named := rep.entry_email listed stored
  exact ⟨stored, rfl, by simp, False.elim, fun _ => ⟨rfl, serves.2.1, by rwa [named], by rwa [named]⟩⟩

theorem modify (standing : Standing hashPassword registry users user email hash retired entry bumps) (id)
    {f} (neutral : UserEntry.Neutral f) :
    ∃ entry', Standing hashPassword (registry.modify id f) users user email hash retired entry' bumps := by
  obtain ⟨sameEmail, sameGeneration, sameRevoked, -⟩ := neutral entry
  refine ⟨_, modify_heap_self _ standing.stored, ?_, ?_, ?_, ?_⟩
  all_goals split_ifs
  · exact sameEmail.trans standing.named
  · exact standing.named
  · exact sameGeneration.trans standing.counted
  · exact standing.counted
  · rw [sameRevoked]; exact standing.expired
  · exact standing.expired
  · rw [sameRevoked]; exact standing.current
  · exact standing.current

theorem replace (standing : Standing hashPassword registry users user email hash retired entry bumps)
    (rep : registry.Represents hashPassword users) {specs} (distinct : (specs.map (·.email)).Nodup) :
    ∃ entry' bumps', bumps' ≤ bumps + 1 ∧
      Standing hashPassword (registry.replace hashPassword specs) (userSet hashPassword specs)
        user email hash (retired ∨ (userSet hashPassword specs).hashOf hashPassword email ≠ some hash)
        entry' bumps' := by
  have becomes := replace_heap rep distinct standing.stored
  by_cases listed : registry.index.byEmail.lookup email = some user.entry
  · rw [fate, standing.named, if_pos listed] at becomes
    cases enrolled : (userSet hashPassword specs).lookup email with
    | none =>
      rw [enrolled] at becomes
      have dropped : (userSet hashPassword specs).hashOf hashPassword email ≠ some hash := by
        simp [UserSet.hashOf, enrolled]
      exact ⟨_, bumps, Nat.le_succ _, becomes, standing.named, standing.counted,
        fun _ => .inl rfl, fun kept => absurd (.inr dropped) kept⟩
    | some spec =>
      have hashed : (userSet hashPassword specs).hashOf hashPassword email =
          some (hashPassword spec.password) := by simp [UserSet.hashOf, enrolled]
      simp only [enrolled, rep.hash_iff listed] at becomes
      rw [hashed]
      by_cases same : users.hashOf hashPassword email = some (hashPassword spec.password)
      · simp only [same, decide_true, Bool.not_true] at becomes
        refine ⟨_, bumps, Nat.le_succ _, becomes, standing.named, standing.counted, ?_, ?_⟩
        · rintro (retired | moved)
          · exact standing.expired retired
          · by_cases past : retired
            · exact standing.expired past
            · exact absurd (same.symm.trans (standing.current past).2.2.2) moved
        · intro kept
          rw [not_or, not_not] at kept
          obtain ⟨none, live, -, -⟩ := standing.current kept.1
          exact ⟨none, live, replace_reuses rep distinct listed enrolled, hashed.trans kept.2⟩
      · simp only [same, decide_false, Bool.not_false] at becomes
        refine ⟨_, bumps + 1, Nat.le_refl _, becomes, standing.named, ?_,
          fun _ => .inr (Nat.succ_pos _), ?_⟩
        · simp [UserEntry.reissue, UserEntry.applyLimits, standing.counted, UInt64.ofNat_add,
            UInt64.add_assoc]
        · intro kept
          rw [not_or, not_not] at kept
          exact absurd ((standing.current kept.1).2.2.2.trans kept.2.symm) same
  · rw [fate, standing.named, if_neg listed] at becomes
    have past : retired := by
      by_contra kept
      exact listed (standing.current kept).2.2.1
    exact ⟨entry, bumps, Nat.le_succ _, becomes, standing.named, standing.counted,
      fun _ => standing.expired past, fun kept => absurd (.inl past) kept⟩

theorem generation_moved {generation bumps} (few : bumps < 2 ^ 64) :
    generation + UInt64.ofNat bumps ≠ generation ↔ 0 < bumps := by
  constructor
  · intro moved
    rcases Nat.eq_zero_or_pos bumps with rfl | some
    · simp at moved
    · exact some
  · intro some same
    have values := congrArg UInt64.toNat same
    simp only [UInt64.toNat_add, UInt64.toNat_ofNat'] at values
    have := generation.toNat_lt
    omega

theorem denyReason_iff
    (standing : Standing hashPassword registry users user email hash retired entry bumps)
    (few : bumps < 2 ^ 64) (now : Int64) :
    user.denyReason registry now = some .revoked ↔ retired := by
  simp only [AuthedUser.denyReason, standing.stored, Option.bind_some, standing.counted,
    generation_moved few]
  constructor
  · intro denied
    by_contra kept
    obtain ⟨rfl, live, -⟩ := standing.current kept
    rw [if_neg (Nat.lt_irrefl 0), UserEntry.denyReasonAt_revoked, live] at denied
    cases denied
  · intro past
    rcases standing.expired past with gone | some
    · rw [UserEntry.denyReasonAt_revoked entry now |>.mpr gone, ite_self]
    · rw [if_pos some]

end Standing

/-- What an operation does to the registry: it replaces the user set, or it keeps
accounts on one entry. -/
def Evolves (hashPassword : String → PasswordHash) (registry : UserRegistry) :
    Option (List UserSpec) → UserRegistry → Prop
  | some specs, next => next = registry.replace hashPassword specs
  | none, next => ∃ id f, UserEntry.Neutral f ∧ next = registry.modify id f

theorem evolves_refl : registry.Evolves hashPassword none registry :=
  ⟨0, id, fun _ => ⟨rfl, rfl, rfl, rfl, rfl⟩, by simp [UserRegistry.modify, List.modify_id]⟩

theorem connect_evolves (id) : registry.Evolves hashPassword none (registry.connect id) :=
  ⟨id, fun entry => { entry with connections := entry.connections + 1 },
    fun _ => ⟨rfl, rfl, rfl, rfl, rfl⟩, rfl⟩

/-- The user set after an operation. -/
def usersAfter (hashPassword : String → PasswordHash) (users : UserSet) :
    Option (List UserSpec) → UserSet
  | some specs => userSet hashPassword specs
  | none => users

/-- The operation leaves out the email, or gives it another hash. -/
def Supersedes (hashPassword : String → PasswordHash) (email : String) (hash : PasswordHash) :
    Option (List UserSpec) → Prop
  | some specs => (userSet hashPassword specs).hashOf hashPassword email ≠ some hash
  | none => False

theorem Represents.evolve {next replaced} (rep : registry.Represents hashPassword users)
    (distinct : ∀ specs ∈ replaced, (specs.map (·.email)).Nodup)
    (evolves : registry.Evolves hashPassword replaced next) :
    next.Represents hashPassword (usersAfter hashPassword users replaced) := by
  cases replaced with
  | some specs => rw [evolves]; exact replace_represents rep (distinct specs rfl)
  | none => obtain ⟨id, f, neutral, rfl⟩ := evolves; exact rep.modify id neutral

theorem Standing.evolve {next replaced user email hash retired entry bumps}
    (standing : Standing hashPassword registry users user email hash retired entry bumps)
    (rep : registry.Represents hashPassword users)
    (distinct : ∀ specs ∈ replaced, (specs.map (·.email)).Nodup)
    (evolves : registry.Evolves hashPassword replaced next) :
    ∃ entry' bumps', bumps' ≤ bumps + replaced.toList.length ∧
      Standing hashPassword next (usersAfter hashPassword users replaced) user email hash
        (retired ∨ Supersedes hashPassword email hash replaced) entry' bumps' := by
  cases replaced with
  | some specs => rw [evolves]; exact standing.replace rep (distinct specs rfl)
  | none =>
    obtain ⟨id, f, neutral, rfl⟩ := evolves
    obtain ⟨entry', standing'⟩ := standing.modify id neutral
    exact ⟨entry', bumps, Nat.le_refl _, by simpa [Supersedes, usersAfter] using standing'⟩

end UserRegistry

inductive RegistryOp where
  | replace (specs : List UserSpec)
  | authenticate (passwordHash : Bytes) (now : Int64)
  | recordUp (session : Nat) (bytes : UInt64)
  | recordDown (session : Nat) (bytes : UInt64)
  | resetQuota (entry : EntryId)
  | drop (session : Nat)

/-- The registry and the sessions it has let in, in the order of their
authentication; a dropped session leaves its place empty. -/
structure Node where
  registry : UserRegistry
  sessions : List (Option AuthedUser)

namespace Node
variable (hashPassword : String → PasswordHash)

def new : Node := ⟨UserRegistry.new, []⟩

def session (node : Node) (i : Nat) : Option AuthedUser := (node.sessions[i]?).join

def step (node : Node) : RegistryOp → Option Node
  | .replace specs => some { node with registry := node.registry.replace hashPassword specs }
  | .authenticate passwordHash now =>
    match node.registry.authenticate passwordHash now with
    | none => some node
    | some (user, registry) => some ⟨registry, node.sessions ++ [some user]⟩
  | .recordUp i bytes =>
    (node.session i).map fun user => { node with registry := user.recordUp node.registry bytes }
  | .recordDown i bytes =>
    (node.session i).map fun user => { node with registry := user.recordDown node.registry bytes }
  | .resetQuota id => some { node with registry := node.registry.modify id UserEntry.resetQuota }
  | .drop i =>
    (node.session i).map fun user => ⟨user.drop node.registry, node.sessions.set i none⟩

end Node

/-- The specs of a replace. -/
def RegistryOp.specs? : RegistryOp → Option (List UserSpec)
  | .replace specs => some specs
  | _ => none

/-- The specs of every replace have pairwise distinct emails. -/
def DistinctEmails (ops : List RegistryOp) : Prop :=
  ∀ op ∈ ops, ∀ specs ∈ op.specs?, (specs.map (·.email)).Nodup

instance (ops : List RegistryOp) : Decidable (DistinctEmails ops) :=
  inferInstanceAs (Decidable (∀ op ∈ ops, ∀ specs ∈ op.specs?, (specs.map (·.email)).Nodup))

/-- Some replace of `ops` leaves out the email, or gives it another hash. -/
def Superseded (hashPassword : String → PasswordHash) (email : String) (hash : PasswordHash)
    (ops : List RegistryOp) : Prop :=
  ∃ specs, RegistryOp.replace specs ∈ ops ∧
    (userSet hashPassword specs).hashOf hashPassword email ≠ some hash

section
variable {hashPassword : String → PasswordHash} {node next : Node}

theorem authenticate_eq {registry next : UserRegistry} {passwordHash now} {user : AuthedUser}
    (authed : registry.authenticate passwordHash now = some (user, next)) :
    ∃ entry, registry.lookupHash passwordHash = some user.entry ∧
      registry.heap[user.entry]? = some entry ∧ entry.denyReasonAt now = none ∧
      user = ⟨user.entry, entry.generation⟩ ∧ next = registry.connect user.entry := by
  simp only [UserRegistry.authenticate, Option.bind_eq_bind, Option.bind_eq_some_iff] at authed
  obtain ⟨id, found, entry, stored, admitted⟩ := authed
  cases denied : entry.denyReasonAt now with
  | some reason => simp [denied] at admitted
  | none =>
    simp only [denied, Option.some.injEq, Prod.mk.injEq] at admitted
    obtain ⟨rfl, rfl⟩ := admitted
    exact ⟨entry, found, stored, denied, rfl, rfl⟩

theorem Node.step_evolves {op : RegistryOp} (stepped : node.step hashPassword op = some next) :
    node.registry.Evolves hashPassword op.specs? next.registry := by
  cases op with
  | replace specs => cases stepped; rfl
  | authenticate passwordHash now =>
    simp only [Node.step] at stepped
    split at stepped
    · cases stepped; exact UserRegistry.evolves_refl
    · rename_i user registry authed
      cases stepped
      obtain ⟨_, -, -, -, -, rfl⟩ := authenticate_eq authed
      exact UserRegistry.connect_evolves user.entry
  | recordUp i bytes =>
    obtain ⟨user, -, rfl⟩ := Option.map_eq_some_iff.mp stepped
    exact ⟨user.entry, (·.recordUp bytes), fun _ => ⟨rfl, rfl, rfl, rfl, rfl⟩, rfl⟩
  | recordDown i bytes =>
    obtain ⟨user, -, rfl⟩ := Option.map_eq_some_iff.mp stepped
    exact ⟨user.entry, (·.recordDown bytes), fun _ => ⟨rfl, rfl, rfl, rfl, rfl⟩, rfl⟩
  | resetQuota id =>
    cases stepped
    exact ⟨id, UserEntry.resetQuota, fun _ => ⟨rfl, rfl, rfl, rfl, rfl⟩, rfl⟩
  | drop i =>
    obtain ⟨user, -, rfl⟩ := Option.map_eq_some_iff.mp stepped
    exact ⟨user.entry, fun entry => { entry with connections := entry.connections - 1 },
      fun _ => ⟨rfl, rfl, rfl, rfl, rfl⟩, rfl⟩

theorem run_represents {ops users} (rep : node.registry.Represents hashPassword users)
    (distinct : DistinctEmails ops) (path : Transition.run (Node.step hashPassword) node ops = some next) :
    ∃ users', next.registry.Represents hashPassword users' := by
  induction ops generalizing node users with
  | nil => cases path; exact ⟨users, rep⟩
  | cons op rest ih =>
    obtain ⟨middle, stepped, onward⟩ := Transition.run_cons_some.mp path
    obtain ⟨now, later⟩ := List.forall_mem_cons.mp distinct
    exact ih (rep.evolve now (Node.step_evolves stepped)) later onward

theorem superseded_cons {email hash op rest} :
    Superseded hashPassword email hash (op :: rest) ↔
      UserRegistry.Supersedes hashPassword email hash op.specs? ∨
        Superseded hashPassword email hash rest := by
  cases op <;> simp [Superseded, UserRegistry.Supersedes, RegistryOp.specs?, or_and_right, exists_or]

open UserRegistry in
theorem run_standing {ops users user email hash retired entry bumps}
    (rep : node.registry.Represents hashPassword users) (distinct : DistinctEmails ops)
    (standing : Standing hashPassword node.registry users user email hash retired entry bumps)
    (path : Transition.run (Node.step hashPassword) node ops = some next) :
    ∃ users' entry' bumps', bumps' ≤ bumps + (ops.filterMap (·.specs?)).length ∧
      Standing hashPassword next.registry users' user email hash
        (retired ∨ Superseded hashPassword email hash ops) entry' bumps' := by
  induction ops generalizing node users retired entry bumps with
  | nil =>
    cases path
    exact ⟨users, entry, bumps, Nat.le_refl _, by simpa [Superseded] using standing⟩
  | cons op rest ih =>
    obtain ⟨middle, stepped, onward⟩ := Transition.run_cons_some.mp path
    obtain ⟨now, later⟩ := List.forall_mem_cons.mp distinct
    have evolves := Node.step_evolves stepped
    obtain ⟨entry', bumps', bounded, standing'⟩ := standing.evolve rep now evolves
    obtain ⟨users'', entry'', bumps'', bounded', final⟩ :=
      ih (rep.evolve now evolves) later standing' onward
    refine ⟨users'', entry'', bumps'', ?_, ?_⟩
    · have count : ((op :: rest).filterMap (·.specs?)).length =
          op.specs?.toList.length + (rest.filterMap (·.specs?)).length := by
        cases shape : op.specs? <;> simp [shape, Nat.add_comm]
      omega
    · rwa [superseded_cons, ← or_assoc]

/-- A session is denied as revoked exactly if some replace since its
authentication left out its email or gave it another password. -/
theorem revoked_iff_superseded (before after : List RegistryOp) (hash : PasswordHash)
    (since now : Int64) {authed : Node} {user : AuthedUser} {email : String}
    (distinct : DistinctEmails (before ++ after))
    (few : ((before ++ after).filterMap (·.specs?)).length < 2 ^ 64)
    (reached : Transition.run (Node.step hashPassword) Node.new before = some node)
    (entered : node.step hashPassword (.authenticate hash.val since) = some authed)
    (session : authed.session node.sessions.length = some user)
    (known : user.email node.registry = some email)
    (path : Transition.run (Node.step hashPassword) authed after = some next) :
    user.denyReason next.registry now = some .revoked ↔ Superseded hashPassword email hash after := by
  obtain ⟨earlier, later⟩ := List.forall_mem_append.mp distinct
  obtain ⟨users, rep⟩ := run_represents (UserRegistry.Represents.empty []) earlier reached
  simp only [Node.step] at entered
  split at entered
  · cases entered
    simp [Node.session] at session
  · rename_i user' registry accepted
    cases entered
    simp only [Node.session, List.getElem?_concat_length, Option.join_some, Option.some.injEq] at session
    subst session
    obtain ⟨entry, found, stored, -, same, rfl⟩ := authenticate_eq accepted
    rw [UserRegistry.lookupHash, dif_pos hash.property] at found
    have named : entry.email = email := by
      simpa [AuthedUser.email, stored] using known
    have standing := UserRegistry.Standing.start rep found stored
    rw [← same, named] at standing
    have counted : node.registry.Evolves hashPassword none (node.registry.connect user'.entry) :=
      UserRegistry.connect_evolves _
    obtain ⟨entry', bumps, none, standing'⟩ := standing.evolve rep (by simp) counted
    obtain ⟨_, _, bumps', bounded, final⟩ :=
      run_standing (rep.evolve (by simp) counted) later standing' path
    have small : bumps' < 2 ^ 64 := by
      simp only [List.filterMap_append, List.length_append, Option.toList_none,
        List.length_nil] at few none
      omega
    rw [final.denyReason_iff small, UserRegistry.Supersedes, or_false, false_or]

end

/-- A stand-in digest: the length of the password, 32 times. -/
def lengthHash (password : String) : PasswordHash :=
  ⟨List.replicate PASSWORD_HASH_LEN (UInt8.ofNat password.length), List.length_replicate⟩

def unlimited (email password : String) : UserSpec := ⟨email, password, 0, 0⟩

def twoUsers : List RegistryOp := [.replace [unlimited "a@x" "four", unlimited "b@x" "two"]]

/-- The two users swap their passwords and swap them back. -/
def swapBack : List RegistryOp :=
  [.replace [unlimited "a@x" "two", unlimited "b@x" "four"], .resetQuota 0,
    .replace [unlimited "a@x" "four", unlimited "b@x" "two"]]

theorem swapBack_retires :
    ∃ next, Transition.run (Node.step lengthHash) Node.new
        (twoUsers ++ .authenticate (lengthHash "four").val 5 :: swapBack) = some next ∧
      AuthedUser.denyReason ⟨0, 0⟩ next.registry 7 = some .revoked := by
  have superseded : Superseded lengthHash "a@x" (lengthHash "four") swapBack :=
    ⟨_, List.mem_cons_self, by decide⟩
  exact ⟨_, rfl, (revoked_iff_superseded twoUsers swapBack (lengthHash "four") 5 7
    (by decide) (by decide) rfl rfl rfl rfl rfl).mpr superseded⟩

end AnyTls
