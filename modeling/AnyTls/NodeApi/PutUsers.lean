import AnyTls.Core.TextRoundTrip
import AnyTls.NodeApi.Retirement
import Mathlib.Data.List.Sort
import Mathlib.Data.List.Lex

/-! The body of `PUT /users` and the registry it leaves. The body is a map from emails; its
specs are sorted by email, so that of the users with one password the first by email is
served, whatever order the map is iterated in. -/
namespace AnyTls

structure UsersPutEntry where
  password : String
  quotaBytes : UInt64
  expiresUnix : Int64
deriving DecidableEq, Repr

/-- The users of a body, in the order in which the map is iterated. -/
abbrev UsersPutBody := AList fun _ : String => UsersPutEntry

/-- Strings are compared byte by byte. -/
def byteKey (text : String) : List Nat := (asBytes text).map UInt8.toNat

theorem byteKey_injective {first second} (same : byteKey first = byteKey second) : first = second := by
  have bytes : asBytes first = asBytes second :=
    List.map_injective_iff.mpr (fun a b => UInt8.toNat_inj.mp) same
  have chars := congrArg fromUtf8Lossy bytes
  rw [fromUtf8Lossy_asBytes, fromUtf8Lossy_asBytes] at chars
  exact String.toList_inj.mp chars

/-- `a.email.cmp(&b.email)` is not `Greater`. -/
def UserSpec.Sorted (first second : UserSpec) : Prop := byteKey first.email ≤ byteKey second.email

instance : DecidableRel UserSpec.Sorted := fun first second =>
  inferInstanceAs (Decidable (byteKey first.email ≤ byteKey second.email))

instance : Std.Total UserSpec.Sorted := ⟨fun first second => le_total (byteKey first.email) (byteKey second.email)⟩

instance : IsTrans UserSpec UserSpec.Sorted := ⟨fun _ _ _ => le_trans⟩

namespace UsersPutBody
variable (body : UsersPutBody)

def toSpec (user : Sigma fun _ : String => UsersPutEntry) : UserSpec :=
  ⟨user.1, user.2.password, user.2.quotaBytes, user.2.expiresUnix⟩

def intoSpecs : List UserSpec := (body.entries.map toSpec).insertionSort UserSpec.Sorted

theorem intoSpecs_perm : body.intoSpecs.Perm (body.entries.map toSpec) := List.perm_insertionSort _ _

theorem mem_intoSpecs {spec} : spec ∈ body.intoSpecs ↔
    ∃ user, body.lookup spec.email = some user ∧ spec = toSpec ⟨spec.email, user⟩ := by
  rw [body.intoSpecs_perm.mem_iff, List.mem_map]
  constructor
  · rintro ⟨⟨email, user⟩, member, rfl⟩
    exact ⟨user, AList.mem_lookup_iff.mpr member, rfl⟩
  · rintro ⟨user, found, same⟩
    exact ⟨⟨spec.email, user⟩, AList.mem_lookup_iff.mp found, same.symm⟩

theorem intoSpecs_emails : (body.intoSpecs.map (·.email)).Nodup := by
  have keys : ((body.entries.map toSpec).map (·.email)) = body.keys := by
    rw [List.map_map]
    rfl
  rw [(body.intoSpecs_perm.map _).nodup_iff, keys]
  exact body.keys_nodup

/-- The specs stand in the strict order of their emails. -/
theorem intoSpecs_increasing :
    body.intoSpecs.Pairwise fun first second => byteKey first.email < byteKey second.email := by
  have sorted : body.intoSpecs.Pairwise UserSpec.Sorted := List.pairwise_insertionSort _ _
  have distinct := body.intoSpecs_emails
  rw [List.Nodup, List.pairwise_map] at distinct
  exact (sorted.and distinct).imp fun both => lt_of_le_of_ne both.1 fun same => both.2 (byteKey_injective same)

end UsersPutBody

/-! ### The users of an ordered list -/

/-- A spec that `replace` does not pass over for being empty. -/
def UserSpec.Complete (spec : UserSpec) : Prop := spec.email ≠ "" ∧ spec.password ≠ ""

section
variable {hashPassword : String → PasswordHash} {specs : List UserSpec}

theorem complete_iff {spec : UserSpec} : spec.Complete ↔ (spec.email.isEmpty || spec.password.isEmpty) = false := by
  simp [UserSpec.Complete]

/-- A password is taken once some complete spec has had it. -/
theorem userSet_hasHash (distinct : (specs.map (·.email)).Nodup) (hash : PasswordHash) :
    (userSet hashPassword specs).hasHash hashPassword hash = true ↔
      ∃ spec ∈ specs, spec.Complete ∧ hashPassword spec.password = hash := by
  induction specs using List.reverseRecOn with
  | nil => simp [userSet, UserSet.hasHash]
  | append_singleton specs last ih =>
    simp only [List.map_append, List.map_cons, List.map_nil, List.nodup_append,
      List.mem_singleton, ne_eq, forall_eq] at distinct
    have absent : (userSet hashPassword specs).lookup last.email = none :=
      userSet_lookup_none fun listed => distinct.2.2 _ listed rfl
    have earlier := ih distinct.1
    have split : (∃ spec ∈ specs ++ [last], spec.Complete ∧ hashPassword spec.password = hash) ↔
        (userSet hashPassword specs).hasHash hashPassword hash = true ∨
          last.Complete ∧ hashPassword last.password = hash := by
      rw [earlier]
      simp [or_and_right, exists_or]
    rw [split, userSet_append, UserSet.enroll]
    split_ifs with blank taken
    · have incomplete : ¬ last.Complete := fun complete => by
        rw [complete_iff.mp complete] at blank
        cases blank
      simp [incomplete]
    · constructor
      · exact .inl
      · rintro (before | ⟨-, rfl⟩)
        · exact before
        · exact taken
    · have complete : last.Complete := complete_iff.mpr (by simpa using blank)
      rw [UserSet.hasHash_iff, UserSet.hasHash_iff]
      constructor
      · rintro ⟨email, hashed⟩
        by_cases same : email = last.email
        · rw [same, UserSet.hashOf_insert_self, Option.some.injEq] at hashed
          exact .inr ⟨complete, hashed⟩
        · rw [UserSet.hashOf_insert_ne same] at hashed
          exact .inl ⟨email, hashed⟩
      · rintro (⟨email, hashed⟩ | ⟨-, rfl⟩)
        · refine ⟨email, ?_⟩
          rw [UserSet.hashOf_insert_ne]
          · exact hashed
          · rintro rfl
            simp [UserSet.hashOf, absent] at hashed
        · exact ⟨last.email, UserSet.hashOf_insert_self⟩

/-- Of the complete specs with one password, the first in the order is enrolled. -/
theorem userSet_lookup {email} {spec : UserSpec}
    (increasing : specs.Pairwise fun first second => byteKey first.email < byteKey second.email) :
    (userSet hashPassword specs).lookup email = some spec ↔
      spec ∈ specs ∧ spec.email = email ∧ spec.Complete ∧
        ∀ other ∈ specs, byteKey other.email < byteKey spec.email → other.Complete →
          hashPassword other.password ≠ hashPassword spec.password := by
  induction specs using List.reverseRecOn with
  | nil => simp [userSet]
  | append_singleton specs last ih =>
    obtain ⟨earlier, -, below⟩ := List.pairwise_append.mp increasing
    have below : ∀ other ∈ specs, byteKey other.email < byteKey last.email := fun other member =>
      below other member last (List.mem_singleton_self _)
    have distinct : (specs.map (·.email)).Nodup := by
      rw [List.Nodup, List.pairwise_map]
      exact earlier.imp fun less same => absurd less (by rw [same]; exact lt_irrefl _)
    have absent : (userSet hashPassword specs).lookup last.email = none := by
      refine userSet_lookup_none fun listed => ?_
      obtain ⟨other, member, same⟩ := List.mem_map.mp listed
      exact absurd (below other member) (by rw [same]; exact lt_irrefl _)
    by_cases same : email = last.email
    · subst same
      have only : spec ∈ specs → spec.email ≠ last.email := fun member same =>
        absurd (below spec member) (by rw [same]; exact lt_irrefl _)
      have enrolled : (userSet hashPassword (specs ++ [last])).lookup last.email = some spec ↔
          spec = last ∧ last.Complete ∧
            (userSet hashPassword specs).hasHash hashPassword (hashPassword last.password) = false := by
        rw [userSet_append, UserSet.enroll]
        split_ifs with blank taken
        · simp [absent, complete_iff, blank]
        · simp [absent, taken]
        · simp [complete_iff, blank, taken, eq_comm]
      rw [enrolled, Bool.eq_false_iff, ne_eq, userSet_hasHash distinct]
      constructor
      · rintro ⟨rfl, complete, free⟩
        refine ⟨by simp, rfl, complete, fun other member less whole same => free ⟨other, ?_, whole, same⟩⟩
        rcases List.mem_append.mp member with before | itself
        · exact before
        · cases List.mem_singleton.mp itself
          exact absurd less (lt_irrefl _)
      · rintro ⟨member, named, complete, first⟩
        rcases List.mem_append.mp member with before | itself
        · exact absurd named (only before)
        · cases List.mem_singleton.mp itself
          refine ⟨rfl, complete, ?_⟩
          rintro ⟨other, known, whole, taken⟩
          exact first other (List.mem_append_left _ known) (below other known) whole taken
    · rw [userSet_append, enroll_lookup_ne same, ih earlier]
      constructor
      · rintro ⟨member, rfl, complete, first⟩
        refine ⟨List.mem_append_left _ member, rfl, complete, fun other listed less => ?_⟩
        rcases List.mem_append.mp listed with before | itself
        · exact first other before less
        · cases List.mem_singleton.mp itself
          exact absurd less (lt_asymm (below spec member))
      · rintro ⟨member, rfl, complete, first⟩
        rcases List.mem_append.mp member with before | itself
        · exact ⟨before, rfl, complete, fun other listed => first other (List.mem_append_left _ listed)⟩
        · cases List.mem_singleton.mp itself
          exact absurd rfl same

end

/-! ### The registry after a put -/

/-- The body has the email, with a password that no smaller email of the body has. -/
def UsersPutBody.Serves (body : UsersPutBody) (hashPassword : String → PasswordHash) (email : String)
    (user : UsersPutEntry) : Prop :=
  body.lookup email = some user ∧ email ≠ "" ∧ user.password ≠ "" ∧
    ∀ other put, body.lookup other = some put → byteKey other < byteKey email → other ≠ "" → put.password ≠ "" →
      hashPassword put.password ≠ hashPassword user.password

theorem intoSpecs_lookup {hashPassword} {body : UsersPutBody} {email spec} :
    (userSet hashPassword body.intoSpecs).lookup email = some spec ↔
      ∃ user, body.Serves hashPassword email user ∧ spec = UsersPutBody.toSpec ⟨email, user⟩ := by
  rw [userSet_lookup body.intoSpecs_increasing]
  constructor
  · rintro ⟨member, rfl, complete, first⟩
    obtain ⟨user, found, same⟩ := body.mem_intoSpecs.mp member
    rw [same] at complete first
    refine ⟨user, ⟨found, complete.1, complete.2, fun other put listed less named secret => ?_⟩, same⟩
    exact first (UsersPutBody.toSpec ⟨other, put⟩) (body.mem_intoSpecs.mpr ⟨put, listed, rfl⟩) less ⟨named, secret⟩
  · rintro ⟨user, ⟨found, named, secret, first⟩, rfl⟩
    refine ⟨body.mem_intoSpecs.mpr ⟨user, found, rfl⟩, rfl, ⟨named, secret⟩, fun other member less complete => ?_⟩
    obtain ⟨put, listed, same⟩ := body.mem_intoSpecs.mp member
    rw [same] at complete ⊢
    exact first other.email put listed less complete.1 complete.2

/-- The registry equals the pushed set. After a put, in whatever state earlier puts and
their users have left the registry, exactly the emails that the body serves are known;
each has an entry of its own with the quota and the expiry of the body, which the hash of
its password leads to and no other hash; every hash that leads to an entry leads to that of
a served email; and `authenticate` accepts a hash only for the one served user whose
password has it. -/
theorem registry_equals_pushed (hashPassword : String → PasswordHash) (body : UsersPutBody)
    {ops : List RegistryOp} {node : Node}
    (pushed : ∀ op ∈ ops, ∀ specs ∈ op.specs?, ∃ earlier : UsersPutBody, specs = earlier.intoSpecs)
    (reached : Transition.run (Node.step hashPassword) Node.new ops = some node) {registry : UserRegistry}
    (put : registry = node.registry.replace hashPassword body.intoSpecs) :
    (∀ email, (registry.get email).isSome = true ↔ ∃ user, body.Serves hashPassword email user) ∧
    (∀ email id, registry.get email = some id → ∃ user entry, body.lookup email = some user ∧
      registry.heap[id]? = some entry ∧ entry.email = email ∧ entry.quotaBytes = user.quotaBytes ∧
      entry.expiresUnix = user.expiresUnix ∧
      ∀ hash, registry.index.byHash.lookup hash = some id ↔ hash = hashPassword user.password) ∧
    (∀ hash id, registry.index.byHash.lookup hash = some id → ∃ email, registry.get email = some id) ∧
    (∀ hash now authed next, registry.authenticate hash now = some (authed, next) →
      ∃ email user, body.Serves hashPassword email user ∧ registry.get email = some authed.entry ∧
        (hashPassword user.password).val = hash ∧
        ∀ other put, body.Serves hashPassword other put → (hashPassword put.password).val = hash → other = email) := by
  have distinct : DistinctEmails ops := by
    intro op member specs listed
    obtain ⟨earlier, rfl⟩ := pushed op member specs listed
    exact earlier.intoSpecs_emails
  obtain ⟨users, before⟩ := run_represents (UserRegistry.Represents.empty []) distinct reached
  have rep : registry.Represents hashPassword (userSet hashPassword body.intoSpecs) :=
    put ▸ UserRegistry.replace_represents before body.intoSpecs_emails
  have hashed {email : String} {user : UsersPutEntry} (serves : body.Serves hashPassword email user) :
      (userSet hashPassword body.intoSpecs).hashOf hashPassword email = some (hashPassword user.password) := by
    rw [UserSet.hashOf, intoSpecs_lookup.mpr ⟨user, serves, rfl⟩]
    rfl
  refine ⟨fun email => ?_, fun email id listed => ?_, fun hash id found => ?_, fun hash now authed next accepted => ?_⟩
  · constructor
    · intro known
      obtain ⟨id, listed⟩ := Option.isSome_iff_exists.mp known
      obtain ⟨spec, entry, enrolled, -⟩ := rep.live listed
      obtain ⟨user, serves, -⟩ := intoSpecs_lookup.mp enrolled
      exact ⟨user, serves⟩
    · rintro ⟨user, serves⟩
      obtain ⟨id, listed⟩ := rep.known (intoSpecs_lookup.mpr ⟨user, serves, rfl⟩)
      exact Option.isSome_iff_exists.mpr ⟨id, listed⟩
  · obtain ⟨spec, entry, enrolled, -, stored, serves⟩ := rep.live listed
    obtain ⟨user, known, rfl⟩ := intoSpecs_lookup.mp enrolled
    refine ⟨user, entry, known.1, stored, serves.1, serves.2.2.1, serves.2.2.2, fun hash => ?_⟩
    rw [rep.hash_iff listed, UserSet.hashOf, enrolled, Option.map_some, Option.some.injEq]
    exact eq_comm
  · obtain ⟨email, -, listed⟩ := (rep.keyed hash id).mp found
    exact ⟨email, listed⟩
  · obtain ⟨entry, found, -, -, -, -⟩ := authenticate_eq accepted
    simp only [UserRegistry.lookupHash] at found
    split_ifs at found with sized
    obtain ⟨email, known, listed⟩ := (rep.keyed _ _).mp found
    obtain ⟨spec, enrolled, same⟩ := Option.map_eq_some_iff.mp known
    obtain ⟨user, serves, rfl⟩ := intoSpecs_lookup.mp enrolled
    refine ⟨email, user, serves, listed, congrArg Subtype.val same, fun other put served also => ?_⟩
    have shared : hashPassword put.password = ⟨hash, sized⟩ := Subtype.ext also
    obtain ⟨id, placed⟩ := rep.known (intoSpecs_lookup.mpr ⟨put, served, rfl⟩)
    have reached := (rep.hash_iff placed ⟨hash, sized⟩).mpr (shared ▸ hashed served)
    cases found.symm.trans reached
    exact rep.email_unique placed listed

/-- Two users with passwords of one length, and so of one stand-in hash. -/
def collidingBody : UsersPutBody :=
  ((∅ : UsersPutBody).insert "a@x" ⟨"four", 10, 0⟩).insert "b@x" ⟨"also", 0, 0⟩

def emptyBody : UsersPutBody := ∅

def twoPuts : List RegistryOp := [.replace collidingBody.intoSpecs, .replace emptyBody.intoSpecs]

theorem collidingBody_serves : ∃ node registry,
    Transition.run (Node.step lengthHash) Node.new twoPuts = some node ∧
    registry = node.registry.replace lengthHash collidingBody.intoSpecs ∧
    (registry.get "a@x").isSome = true ∧ (registry.get "b@x").isSome = false ∧
    ∀ email, (registry.get email).isSome = true ↔ ∃ user, collidingBody.Serves lengthHash email user := by
  have pushed : ∀ op ∈ twoPuts, ∀ specs ∈ op.specs?, ∃ earlier : UsersPutBody, specs = earlier.intoSpecs := by
    intro op member specs listed
    simp only [twoPuts, List.mem_cons, List.not_mem_nil, or_false] at member
    rcases member with rfl | rfl
    · cases listed
      exact ⟨collidingBody, rfl⟩
    · cases listed
      exact ⟨emptyBody, rfl⟩
  exact ⟨_, _, rfl, rfl, by decide, by decide, (registry_equals_pushed lengthHash collidingBody pushed rfl rfl).1⟩

end AnyTls
