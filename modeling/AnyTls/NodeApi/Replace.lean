import AnyTls.NodeApi.Users
import Mathlib.Data.List.Induction

/-! What `UserRegistry::replace` does: the new index describes exactly the user
set of the specs, and every entry that existed before is left alone, reissued or
revoked as its email fares in that set. -/
namespace AnyTls

section
variable {hashPassword : String → PasswordHash}

theorem UserSet.hasHash_iff {users : UserSet} {hash} :
    users.hasHash hashPassword hash = true ↔
      ∃ email, users.hashOf hashPassword email = some hash := by
  simp only [UserSet.hasHash, List.any_eq_true, decide_eq_true_eq, UserSet.hashOf,
    Option.map_eq_some_iff]
  constructor
  · rintro ⟨⟨email, spec⟩, listed, same⟩
    exact ⟨email, spec, AList.mem_lookup_iff.mpr listed, same⟩
  · rintro ⟨email, spec, found, same⟩
    exact ⟨⟨email, spec⟩, AList.mem_lookup_iff.mp found, same⟩

theorem UserSet.hashOf_insert_self {users : UserSet} {spec : UserSpec} :
    UserSet.hashOf hashPassword (users.insert spec.email spec) spec.email =
      some (hashPassword spec.password) := by
  simp [UserSet.hashOf]

theorem UserSet.hashOf_insert_ne {users : UserSet} {spec : UserSpec} {email} (other : email ≠ spec.email) :
    UserSet.hashOf hashPassword (users.insert spec.email spec) email =
      users.hashOf hashPassword email := by
  simp only [UserSet.hashOf, AList.lookup_insert_ne other]

theorem enroll_lookup_ne {users : UserSet} {spec : UserSpec} {email} (other : email ≠ spec.email) :
    (users.enroll hashPassword spec).lookup email = users.lookup email := by
  unfold UserSet.enroll
  split_ifs
  · rfl
  · rfl
  · exact AList.lookup_insert_ne other

theorem userSet_append (specs spec) :
    userSet hashPassword (specs ++ [spec]) = (userSet hashPassword specs).enroll hashPassword spec := by
  simp [userSet]

theorem userSet_lookup_none {specs : List UserSpec} {email} (absent : email ∉ specs.map (·.email)) :
    (userSet hashPassword specs).lookup email = none := by
  induction specs using List.reverseRecOn with
  | nil => rfl
  | append_singleton specs spec ih =>
    simp only [List.map_append, List.map_cons, List.map_nil, List.mem_append, List.mem_singleton,
      not_or] at absent
    rw [userSet_append, enroll_lookup_ne absent.2]
    exact ih absent.1

end

/-- An entry as the spec describes it. -/
def UserEntry.Serves (entry : UserEntry) (spec : UserSpec) : Prop :=
  entry.email = spec.email ∧ entry.revoked = false ∧
    entry.quotaBytes = spec.quotaBytes ∧ entry.expiresUnix = spec.expiresUnix

theorem UserEntry.new_serves (spec) : (UserEntry.new spec).Serves spec :=
  ⟨rfl, rfl, rfl, rfl⟩

theorem UserEntry.reissue_serves {entry : UserEntry} {spec : UserSpec} (rekeyed)
    (same : entry.email = spec.email) (live : entry.revoked = false) :
    (entry.reissue spec rekeyed).Serves spec := by
  cases rekeyed <;> exact ⟨same, live, rfl, rfl⟩

namespace UserRegistry
variable {hashPassword : String → PasswordHash}

/-- The indices describe `users`: every user has its own live entry, found under
its email and under the hash of its password and under no other key. -/
structure Represents (hashPassword : String → PasswordHash) (registry : UserRegistry)
    (users : UserSet) : Prop where
  known : ∀ {email spec}, users.lookup email = some spec →
    ∃ id, registry.index.byEmail.lookup email = some id
  live : ∀ {email id}, registry.index.byEmail.lookup email = some id →
    ∃ spec entry, users.lookup email = some spec ∧ spec.email = email ∧
      registry.heap[id]? = some entry ∧ entry.Serves spec
  keyed : ∀ hash id, registry.index.byHash.lookup hash = some id ↔
    ∃ email, users.hashOf hashPassword email = some hash ∧
      registry.index.byEmail.lookup email = some id

namespace Represents
variable {registry : UserRegistry} {users : UserSet}

theorem empty (heap : List UserEntry) : Represents hashPassword ⟨heap, ∅, ∅⟩ ∅ where
  known found := by simp at found
  live found := by simp at found
  keyed hash id := by simp [UserSet.hashOf]

theorem entry_email (rep : registry.Represents hashPassword users) {email id entry}
    (listed : registry.index.byEmail.lookup email = some id) (stored : registry.heap[id]? = some entry) :
    entry.email = email := by
  obtain ⟨spec, entry', -, named, stored', serves⟩ := rep.live listed
  cases stored.symm.trans stored'
  exact serves.1.trans named

theorem email_unique (rep : registry.Represents hashPassword users) {first second id}
    (one : registry.index.byEmail.lookup first = some id)
    (two : registry.index.byEmail.lookup second = some id) : first = second := by
  obtain ⟨-, entry, -, -, stored, -⟩ := rep.live one
  exact (rep.entry_email one stored).symm.trans (rep.entry_email two stored)

/-- The re-key test of `replace` compares the user's old and new hash. -/
theorem hash_iff (rep : registry.Represents hashPassword users) {email id}
    (listed : registry.index.byEmail.lookup email = some id) (hash : PasswordHash) :
    registry.index.byHash.lookup hash = some id ↔ users.hashOf hashPassword email = some hash := by
  rw [rep.keyed]
  constructor
  · rintro ⟨other, hashed, found⟩
    rwa [rep.email_unique listed found]
  · intro hashed
    exact ⟨email, hashed, listed⟩

theorem hash_taken (rep : registry.Represents hashPassword users) (hash : PasswordHash) :
    (registry.index.byHash.lookup hash).isSome = users.hasHash hashPassword hash := by
  rw [Bool.eq_iff_iff, UserSet.hasHash_iff, Option.isSome_iff_exists]
  constructor
  · rintro ⟨id, found⟩
    obtain ⟨email, hashed, -⟩ := (rep.keyed hash id).mp found
    exact ⟨email, hashed⟩
  · rintro ⟨email, hashed⟩
    obtain ⟨spec, found, -⟩ := Option.map_eq_some_iff.mp hashed
    obtain ⟨id, listed⟩ := rep.known found
    exact ⟨id, (rep.keyed hash id).mpr ⟨email, hashed, listed⟩⟩

/-- Both branches of the loop body enter one user under two new keys. -/
theorem insert (rep : registry.Represents hashPassword users) {spec : UserSpec} {id heap}
    {entry : UserEntry} (absent : users.lookup spec.email = none)
    (unused : users.hasHash hashPassword (hashPassword spec.password) = false)
    (stored : heap[id]? = some entry) (serves : entry.Serves spec)
    (others : ∀ {email other}, registry.index.byEmail.lookup email = some other →
      heap[other]? = registry.heap[other]?) :
    Represents hashPassword
      ⟨heap, registry.index.byEmail.insert spec.email id,
        registry.index.byHash.insert (hashPassword spec.password) id⟩
      (users.insert spec.email spec) where
  known {email _} found := by
    by_cases same : email = spec.email
    · exact ⟨id, by rw [same]; exact AList.lookup_insert _⟩
    · rw [AList.lookup_insert_ne same] at found
      obtain ⟨other, listed⟩ := rep.known found
      exact ⟨other, by rwa [AList.lookup_insert_ne same]⟩
  live {email other} listed := by
    by_cases same : email = spec.email
    · subst same
      rw [AList.lookup_insert, Option.some.injEq] at listed
      subst listed
      exact ⟨spec, entry, AList.lookup_insert _, rfl, stored, serves⟩
    · rw [AList.lookup_insert_ne same] at listed
      obtain ⟨spec', entry', found, named, stored', serves'⟩ := rep.live listed
      exact ⟨spec', entry', by rwa [AList.lookup_insert_ne same], named,
        (others listed).trans stored', serves'⟩
  keyed hash other := by
    by_cases sameHash : hash = hashPassword spec.password
    · subst sameHash
      rw [AList.lookup_insert, Option.some.injEq]
      constructor
      · rintro rfl
        exact ⟨spec.email, UserSet.hashOf_insert_self, AList.lookup_insert _⟩
      · rintro ⟨email, hashed, listed⟩
        by_cases same : email = spec.email
        · subst same
          rwa [AList.lookup_insert, Option.some.injEq] at listed
        · rw [UserSet.hashOf_insert_ne same] at hashed
          rw [UserSet.hasHash_iff.mpr ⟨email, hashed⟩] at unused
          cases unused
    · rw [AList.lookup_insert_ne sameHash, rep.keyed]
      refine exists_congr fun email => ?_
      by_cases same : email = spec.email
      · subst same
        have gone : registry.index.byEmail.lookup spec.email ≠ some other := by
          intro listed
          obtain ⟨_, _, found, -⟩ := rep.live listed
          rw [absent] at found
          cases found
        simp [UserSet.hashOf_insert_self, gone, Ne.symm sameHash]
      · rw [UserSet.hashOf_insert_ne same, AList.lookup_insert_ne same]

end Represents

/-- What becomes of an entry when `users` replaces the user set of `old`. -/
def fate (hashPassword : String → PasswordHash) (old : Index) (users : UserSet) (id : EntryId)
    (entry : UserEntry) (otherwise : UserEntry) : UserEntry :=
  if old.byEmail.lookup entry.email = some id then
    match users.lookup entry.email with
    | some spec =>
      entry.reissue spec (!decide (old.byHash.lookup (hashPassword spec.password) = some id))
    | none => otherwise
  else entry

theorem fate_email {old users id entry otherwise} (same : otherwise.email = entry.email) :
    (fate hashPassword old users id entry otherwise).email = entry.email := by
  unfold fate
  split_ifs
  · cases users.lookup entry.email with
    | none => exact same
    | some spec =>
      simp only [UserEntry.reissue]
      split_ifs <;> rfl
  · rfl

/-- The loop of `replace` part-way: `building` describes the users enrolled so
far, and the old entries of those users are reissued. -/
structure Building (hashPassword : String → PasswordHash) (registry building : UserRegistry)
    (users : UserSet) : Prop where
  represents : building.Represents hashPassword users
  entries : ∀ {id entry}, registry.heap[id]? = some entry →
    building.heap[id]? = some (fate hashPassword registry.index users id entry entry)
  reused : ∀ {email id spec}, registry.index.byEmail.lookup email = some id →
    users.lookup email = some spec → building.index.byEmail.lookup email = some id

theorem fate_insert_ne {old users spec id entry otherwise}
    (untouched : old.byEmail.lookup spec.email ≠ some id) :
    fate hashPassword old (users.insert spec.email spec) id entry otherwise =
      fate hashPassword old users id entry otherwise := by
  unfold fate
  split_ifs with listed
  · have other : entry.email ≠ spec.email := fun same => untouched (same ▸ listed)
    rw [AList.lookup_insert_ne other]
  · rfl

theorem replaceOne_building {registry building : UserRegistry} {users before : UserSet} {spec : UserSpec}
    (rep : registry.Represents hashPassword before) (built : Building hashPassword registry building users)
    (absent : users.lookup spec.email = none) :
    Building hashPassword registry (replaceOne hashPassword registry.index building spec)
      (users.enroll hashPassword spec) := by
  unfold replaceOne UserSet.enroll
  simp only [built.represents.hash_taken]
  split_ifs with blank taken
  · exact built
  · exact built
  · rw [Bool.not_eq_true] at taken
    cases found : registry.index.byEmail.lookup spec.email with
    | some existing =>
      obtain ⟨_, entry, -, -, stored, serves⟩ := rep.live found
      have named := rep.entry_email found stored
      have current : building.heap[existing]? = some entry := by
        have kept := built.entries stored
        rwa [fate, named, found, absent, if_pos rfl] at kept
      have placed (rekeyed : Bool) :
          (building.heap.modify existing (·.reissue spec rekeyed))[existing]? =
            some (entry.reissue spec rekeyed) := by
        simp [current]
      refine ⟨built.represents.insert absent taken (placed _)
        (UserEntry.reissue_serves _ named serves.2.1) ?_, ?_, ?_⟩
      · intro email other listed
        have apart : existing ≠ other := by
          rintro rfl
          obtain ⟨_, -, enrolled, -⟩ := built.represents.live listed
          rw [← built.represents.entry_email listed current, named, absent] at enrolled
          cases enrolled
        simp [apart]
      · intro id entry' stored'
        rw [List.getElem?_modify]
        by_cases same : existing = id
        · subst same
          cases stored.symm.trans stored'
          rw [fate, named, found, if_pos rfl, AList.lookup_insert]
          simp [current]
        · rw [fate_insert_ne (by simpa [found] using same), built.entries stored']
          simp [same]
      · intro email id _ listed enrolled
        by_cases same : email = spec.email
        · subst same
          rw [found] at listed
          rw [← listed]
          exact AList.lookup_insert _
        · rw [AList.lookup_insert_ne same] at enrolled ⊢
          exact built.reused listed enrolled
    | none =>
      have placed : (building.heap ++ [UserEntry.new spec])[building.heap.length]? =
          some (UserEntry.new spec) := by simp
      refine ⟨built.represents.insert absent taken placed (UserEntry.new_serves spec) ?_, ?_, ?_⟩
      · intro email other listed
        obtain ⟨_, _, -, -, stored, -⟩ := built.represents.live listed
        exact List.getElem?_append_left (List.getElem?_eq_some_iff.mp stored).1
      · intro id entry stored
        have kept := built.entries stored
        rw [fate_insert_ne (by simp [found]), ← kept]
        exact List.getElem?_append_left (List.getElem?_eq_some_iff.mp kept).1
      · intro email id _ listed enrolled
        have other : email ≠ spec.email := by
          rintro rfl
          rw [found] at listed
          cases listed
        rw [AList.lookup_insert_ne other] at enrolled ⊢
        exact built.reused listed enrolled

theorem foldl_building {registry before} (rep : registry.Represents hashPassword before) (specs)
    (distinct : (specs.map (·.email)).Nodup) :
    Building hashPassword registry
      (specs.foldl (replaceOne hashPassword registry.index) ⟨registry.heap, ∅, ∅⟩)
      (userSet hashPassword specs) := by
  induction specs using List.reverseRecOn with
  | nil =>
    refine ⟨Represents.empty _, ?_, ?_⟩
    · intro id entry stored
      simpa [fate, userSet] using stored
    · intro email id spec _ enrolled
      simp [userSet] at enrolled
  | append_singleton specs spec ih =>
    simp only [List.map_append, List.map_cons, List.map_nil, List.nodup_append,
      List.mem_singleton, ne_eq, forall_eq] at distinct
    rw [List.foldl_append, userSet_append]
    exact replaceOne_building rep (ih distinct.1)
      (userSet_lookup_none fun listed => distinct.2.2 _ listed rfl)

theorem revokeAbsent_getElem? (kept : AList fun _ : String => EntryId) (heap : List UserEntry)
    (entries : List (Sigma fun _ : String => EntryId)) (id) :
    (revokeAbsent kept heap entries)[id]? = (heap[id]?).map fun entry =>
      if entries.any fun user => decide (user.2 = id) && (kept.lookup user.1).isNone
      then entry.revoke else entry := by
  induction entries generalizing heap with
  | nil => simp [revokeAbsent]
  | cons user rest ih =>
    have unfolded : revokeAbsent kept heap (user :: rest) =
        revokeAbsent kept (if (kept.lookup user.1).isSome then heap
          else heap.modify user.2 UserEntry.revoke) rest := rfl
    rw [unfolded, ih, List.any_cons]
    cases found : kept.lookup user.1 with
    | some _ => rw [Option.isNone_some, Bool.and_false, Bool.false_or]; rfl
    | none =>
      rw [Option.isNone_none, Bool.and_true]
      by_cases same : user.2 = id
      · cases held : heap[id]? <;> simp [held, same, UserEntry.revoke]
      · rw [decide_eq_false same, Bool.false_or]
        cases held : heap[id]? <;> simp [held, same]

section
variable {registry : UserRegistry} {users : UserSet} {specs : List UserSpec}

/-- Revocation reaches the entries whose email has no user any more. -/
theorem revokeAbsent_fate (rep : registry.Represents hashPassword users) {building after}
    (built : Building hashPassword registry building after) {id entry}
    (stored : registry.heap[id]? = some entry) :
    (revokeAbsent building.index.byEmail building.heap registry.index.byEmail.entries)[id]? =
      some (fate hashPassword registry.index after id entry entry.revoke) := by
  rw [revokeAbsent_getElem?, built.entries stored, Option.map_some, Option.some.injEq]
  have absent_iff : (building.index.byEmail.lookup entry.email).isNone =
      (after.lookup entry.email).isNone := by
    cases held : after.lookup entry.email with
    | some spec =>
      obtain ⟨other, listed⟩ := built.represents.known held
      simp [listed]
    | none =>
      cases listed : building.index.byEmail.lookup entry.email with
      | none => rfl
      | some other =>
        obtain ⟨_, _, found, -⟩ := built.represents.live listed
        rw [held] at found
        cases found
  by_cases listed : registry.index.byEmail.lookup entry.email = some id
  · have reached : (registry.index.byEmail.entries.any fun user =>
        decide (user.2 = id) && (building.index.byEmail.lookup user.1).isNone) =
          (after.lookup entry.email).isNone := by
      rw [← absent_iff, Bool.eq_iff_iff, List.any_eq_true]
      constructor
      · rintro ⟨⟨email, other⟩, mem, hit⟩
        simp only [Bool.and_eq_true, decide_eq_true_eq] at hit
        obtain ⟨rfl, gone⟩ := hit
        rwa [rep.email_unique listed (AList.mem_lookup_iff.mpr mem)]
      · intro gone
        exact ⟨⟨entry.email, id⟩, AList.mem_lookup_iff.mp listed, by simp [gone]⟩
    rw [reached]
    unfold fate
    rw [if_pos listed, if_pos listed]
    cases after.lookup entry.email <;> simp
  · have unreached : (registry.index.byEmail.entries.any fun user =>
        decide (user.2 = id) && (building.index.byEmail.lookup user.1).isNone) = false := by
      rw [List.any_eq_false]
      rintro ⟨email, other⟩ mem
      simp only [Bool.and_eq_true, decide_eq_true_eq]
      rintro ⟨rfl, -⟩
      have found : registry.index.byEmail.lookup email = some other := AList.mem_lookup_iff.mpr mem
      exact listed (by rwa [rep.entry_email found stored])
    rw [unreached]
    simp [fate, listed]

theorem replace_heap (rep : registry.Represents hashPassword users) (distinct : (specs.map (·.email)).Nodup)
    {id entry} (stored : registry.heap[id]? = some entry) :
    (registry.replace hashPassword specs).heap[id]? =
      some (fate hashPassword registry.index (userSet hashPassword specs) id entry entry.revoke) :=
  revokeAbsent_fate rep (foldl_building rep specs distinct) stored

theorem replace_represents (rep : registry.Represents hashPassword users)
    (distinct : (specs.map (·.email)).Nodup) :
    (registry.replace hashPassword specs).Represents hashPassword (userSet hashPassword specs) where
  known found := (foldl_building rep specs distinct).represents.known found
  keyed := (foldl_building rep specs distinct).represents.keyed
  live {email id} listed := by
    have built := foldl_building rep specs distinct
    obtain ⟨spec, entry, enrolled, named, stored, serves⟩ := built.represents.live listed
    refine ⟨spec, entry, enrolled, named, ?_, serves⟩
    have spared : (registry.index.byEmail.entries.any fun user => decide (user.2 = id) &&
        ((registry.replace hashPassword specs).index.byEmail.lookup user.1).isNone) = false := by
      rw [List.any_eq_false]
      rintro ⟨old, other⟩ mem
      simp only [Bool.and_eq_true, decide_eq_true_eq]
      rintro ⟨rfl, gone⟩
      have found : registry.index.byEmail.lookup old = some other := AList.mem_lookup_iff.mpr mem
      obtain ⟨_, before, -, -, stored', -⟩ := rep.live found
      have same := Option.some.inj (stored.symm.trans (built.entries stored'))
      have kept : entry.email = old := by
        rw [same, fate_email rfl, rep.entry_email found stored']
      rw [← kept, serves.1, named, listed] at gone
      cases gone
    show (revokeAbsent _ _ _)[id]? = _
    rw [revokeAbsent_getElem?, stored, Option.map_some]
    simp only [replace] at spared
    rw [spared]
    rfl

theorem replace_reuses (rep : registry.Represents hashPassword users)
    (distinct : (specs.map (·.email)).Nodup) {email id spec}
    (listed : registry.index.byEmail.lookup email = some id)
    (enrolled : (userSet hashPassword specs).lookup email = some spec) :
    (registry.replace hashPassword specs).index.byEmail.lookup email = some id :=
  (foldl_building rep specs distinct).reused listed enrolled

/-- The loop of `replace` part-way: the users that were not served before have entries of
their own, allocated since. -/
structure Admitting (registry building : UserRegistry) : Prop where
  grown : registry.heap.length ≤ building.heap.length
  admitted : ∀ {email id}, registry.index.byEmail.lookup email = none →
    building.index.byEmail.lookup email = some id →
      registry.heap.length ≤ id ∧ ∃ spec, building.heap[id]? = some (UserEntry.new spec)

theorem replaceOne_admitting {building spec} (rep : registry.Represents hashPassword users)
    (admitting : Admitting registry building) :
    Admitting registry (replaceOne hashPassword registry.index building spec) := by
  unfold replaceOne
  dsimp only
  split_ifs with blank taken
  · exact admitting
  · exact admitting
  · cases found : registry.index.byEmail.lookup spec.email with
    | some existing =>
      obtain ⟨_, entry, -, -, stored, -⟩ := rep.live found
      have old : existing < registry.heap.length := (List.getElem?_eq_some_iff.mp stored).1
      refine ⟨by simpa using admitting.grown, fun {email id} absent listed => ?_⟩
      have other : email ≠ spec.email := by
        rintro rfl
        rw [found] at absent
        cases absent
      rw [AList.lookup_insert_ne other] at listed
      obtain ⟨above, spec', stored'⟩ := admitting.admitted absent listed
      have apart : existing ≠ id := Nat.ne_of_lt (Nat.lt_of_lt_of_le old above)
      exact ⟨above, spec', by simp [stored', apart]⟩
    | none =>
      refine ⟨by simpa using Nat.le_succ_of_le admitting.grown, fun {email id} absent listed => ?_⟩
      by_cases same : email = spec.email
      · subst same
        rw [AList.lookup_insert, Option.some.injEq] at listed
        subst listed
        exact ⟨admitting.grown, spec, List.getElem?_concat_length⟩
      · rw [AList.lookup_insert_ne same] at listed
        obtain ⟨above, spec', stored'⟩ := admitting.admitted absent listed
        have old := (List.getElem?_eq_some_iff.mp stored').1
        exact ⟨above, spec', (List.getElem?_append_left old).trans stored'⟩

theorem replace_admits (rep : registry.Represents hashPassword users) {email id}
    (absent : registry.index.byEmail.lookup email = none)
    (listed : (registry.replace hashPassword specs).index.byEmail.lookup email = some id) :
    registry.heap.length ≤ id ∧ ∃ spec,
      (registry.replace hashPassword specs).heap[id]? = some (UserEntry.new spec) := by
  have admitting : Admitting registry
      (specs.foldl (replaceOne hashPassword registry.index) ⟨registry.heap, ∅, ∅⟩) := by
    refine List.foldlRecOn specs _ ⟨Nat.le_refl _, fun _ found => by simp at found⟩ ?_
    exact fun building admitting spec _ => replaceOne_admitting rep admitting
  obtain ⟨above, spec, stored⟩ := admitting.admitted absent listed
  refine ⟨above, spec, ?_⟩
  show (revokeAbsent _ _ _)[id]? = _
  rw [revokeAbsent_getElem?, stored, Option.map_some]
  -- the entries of the old index are all below
  have spared : (registry.index.byEmail.entries.any fun user => decide (user.2 = id) &&
      ((specs.foldl (replaceOne hashPassword registry.index)
        ⟨registry.heap, ∅, ∅⟩).index.byEmail.lookup user.1).isNone) = false := by
    rw [List.any_eq_false]
    rintro ⟨old, other⟩ mem
    simp only [Bool.and_eq_true, decide_eq_true_eq]
    rintro ⟨rfl, -⟩
    obtain ⟨_, _, -, -, stored', -⟩ := rep.live (AList.mem_lookup_iff.mpr mem)
    exact absurd (List.getElem?_eq_some_iff.mp stored').1 (Nat.not_lt_of_le above)
  rw [spared]
  rfl

end

end UserRegistry

end AnyTls
