import AnyTls.Core.Frame
import Mathlib.Data.List.AList

/-! The multi-user registry of `node_api/users.rs`. Entries are shared objects:
the registry owns a heap of them, and the two indices and every session refer to
an entry by its place there. `Sha256::digest` is the parameter `hashPassword`. -/
namespace AnyTls

def PASSWORD_HASH_LEN : Nat := 32

abbrev PasswordHash := { bytes : Bytes // bytes.length = PASSWORD_HASH_LEN }

structure UserSpec where
  email : String
  password : String
  quotaBytes : UInt64
  expiresUnix : Int64
deriving DecidableEq, Repr

inductive DenyReason where
  | revoked | expired | quotaExceeded
deriving DecidableEq, Repr

structure UserEntry where
  email : String
  generation : UInt64
  up : UInt64
  down : UInt64
  connections : Int64
  quotaBytes : UInt64
  quotaBase : UInt64
  expiresUnix : Int64
  revoked : Bool
deriving DecidableEq, Repr

/-- `u64::saturating_add`. -/
def saturatingAdd (a b : UInt64) : UInt64 := UInt64.ofNat (min (a.toNat + b.toNat) (2 ^ 64 - 1))

/-- `u64::saturating_sub`. -/
def saturatingSub (a b : UInt64) : UInt64 := UInt64.ofNat (a.toNat - b.toNat)

theorem saturatingAdd_toNat (a b) :
    (saturatingAdd a b).toNat = min (a.toNat + b.toNat) (2 ^ 64 - 1) := by
  rw [saturatingAdd, UInt64.toNat_ofNat']
  omega

theorem saturatingSub_toNat (a b) : (saturatingSub a b).toNat = a.toNat - b.toNat := by
  have small := a.toNat_lt
  rw [saturatingSub, UInt64.toNat_ofNat']
  omega

namespace UserEntry

def new (spec : UserSpec) : UserEntry :=
  { email := spec.email, generation := 0, up := 0, down := 0, connections := 0
    quotaBytes := spec.quotaBytes, quotaBase := 0, expiresUnix := spec.expiresUnix
    revoked := false }

def recordUp (entry : UserEntry) (bytes : UInt64) : UserEntry := { entry with up := entry.up + bytes }

def recordDown (entry : UserEntry) (bytes : UInt64) : UserEntry :=
  { entry with down := entry.down + bytes }

def quotaUsed (entry : UserEntry) : UInt64 :=
  saturatingSub (saturatingAdd entry.up entry.down) entry.quotaBase

def resetQuota (entry : UserEntry) : UserEntry :=
  { entry with quotaBase := saturatingAdd entry.up entry.down }

def applyLimits (entry : UserEntry) (spec : UserSpec) : UserEntry :=
  { entry with quotaBytes := spec.quotaBytes, expiresUnix := spec.expiresUnix }

def revoke (entry : UserEntry) : UserEntry := { entry with revoked := true }

def denyReasonAt (entry : UserEntry) (now : Int64) : Option DenyReason :=
  if entry.revoked then some .revoked
  else if entry.expiresUnix > 0 ∧ now ≥ entry.expiresUnix then some .expired
  else if entry.quotaBytes > 0 ∧ entry.quotaUsed ≥ entry.quotaBytes then some .quotaExceeded
  else none

theorem denyReasonAt_revoked (entry : UserEntry) (now : Int64) :
    entry.denyReasonAt now = some .revoked ↔ entry.revoked = true := by
  unfold denyReasonAt
  split_ifs with gone <;> simp [gone]

/-- What `replace` does to an entry that stays: the limits of the new spec, and
the next generation when the password is another one. -/
def reissue (entry : UserEntry) (spec : UserSpec) (rekeyed : Bool) : UserEntry :=
  let entry := entry.applyLimits spec
  if rekeyed then { entry with generation := entry.generation + 1 } else entry

end UserEntry

abbrev EntryId := Nat

structure Index where
  byEmail : AList fun _ : String => EntryId
  byHash : AList fun _ : PasswordHash => EntryId

structure UserRegistry where
  /-- every entry ever allocated, in order of allocation -/
  heap : List UserEntry
  index : Index

structure AuthedUser where
  entry : EntryId
  generation : UInt64
deriving DecidableEq, Repr

namespace UserRegistry
variable (hashPassword : String → PasswordHash)

def new : UserRegistry := ⟨[], ∅, ∅⟩

/-- One round of the loop of `replace`, against the index being replaced. -/
def replaceOne (old : Index) (building : UserRegistry) (spec : UserSpec) : UserRegistry :=
  if spec.email.isEmpty || spec.password.isEmpty then building
  else
    let hash := hashPassword spec.password
    if (building.index.byHash.lookup hash).isSome then building
    else
      match old.byEmail.lookup spec.email with
      | some existing =>
        let rekeyed := !decide (old.byHash.lookup hash = some existing)
        { heap := building.heap.modify existing (·.reissue spec rekeyed)
          index :=
            { byEmail := building.index.byEmail.insert spec.email existing
              byHash := building.index.byHash.insert hash existing } }
      | none =>
        { heap := building.heap ++ [UserEntry.new spec]
          index :=
            { byEmail := building.index.byEmail.insert spec.email building.heap.length
              byHash := building.index.byHash.insert hash building.heap.length } }

/-- The loop over the old index that revokes the users of no new spec. -/
def revokeAbsent (kept : AList fun _ : String => EntryId) (heap : List UserEntry)
    (entries : List (Sigma fun _ : String => EntryId)) : List UserEntry :=
  entries.foldl (fun heap user =>
    if (kept.lookup user.1).isSome then heap else heap.modify user.2 UserEntry.revoke) heap

def replace (registry : UserRegistry) (specs : List UserSpec) : UserRegistry :=
  let built := specs.foldl (replaceOne hashPassword registry.index) ⟨registry.heap, ∅, ∅⟩
  { built with heap := revokeAbsent built.index.byEmail built.heap registry.index.byEmail.entries }

def get (registry : UserRegistry) (email : String) : Option EntryId :=
  registry.index.byEmail.lookup email

/-- The read-lock section of `authenticate`. -/
def lookupHash (registry : UserRegistry) (passwordHash : Bytes) : Option EntryId :=
  if sized : passwordHash.length = PASSWORD_HASH_LEN then
    registry.index.byHash.lookup ⟨passwordHash, sized⟩
  else none

def denyReasonAt (registry : UserRegistry) (id : EntryId) (now : Int64) : Option DenyReason :=
  (registry.heap[id]?).bind (·.denyReasonAt now)

def modify (registry : UserRegistry) (id : EntryId) (f : UserEntry → UserEntry) : UserRegistry :=
  { registry with heap := registry.heap.modify id f }

/-- `entry.connections.fetch_add(1)`. -/
def connect (registry : UserRegistry) (id : EntryId) : UserRegistry :=
  registry.modify id fun entry => { entry with connections := entry.connections + 1 }

/-- `authenticate` with no other call in between: look the hash up, check the
entry, read its generation, count the connection. -/
def authenticate (registry : UserRegistry) (passwordHash : Bytes) (now : Int64) :
    Option (AuthedUser × UserRegistry) := do
  let id ← registry.lookupHash passwordHash
  let entry ← registry.heap[id]?
  match entry.denyReasonAt now with
  | some _ => none
  | none => some (⟨id, entry.generation⟩, registry.connect id)

end UserRegistry

namespace AuthedUser

def email (user : AuthedUser) (registry : UserRegistry) : Option String :=
  (registry.heap[user.entry]?).map (·.email)

def recordUp (user : AuthedUser) (registry : UserRegistry) (bytes : UInt64) : UserRegistry :=
  registry.modify user.entry (·.recordUp bytes)

def recordDown (user : AuthedUser) (registry : UserRegistry) (bytes : UInt64) : UserRegistry :=
  registry.modify user.entry (·.recordDown bytes)

def denyReason (user : AuthedUser) (registry : UserRegistry) (now : Int64) : Option DenyReason :=
  (registry.heap[user.entry]?).bind fun entry =>
    if entry.generation ≠ user.generation then some .revoked else entry.denyReasonAt now

/-- `Drop for AuthedUser`. -/
def drop (user : AuthedUser) (registry : UserRegistry) : UserRegistry :=
  registry.modify user.entry fun entry => { entry with connections := entry.connections - 1 }

end AuthedUser

/-! ### The user set a replace describes

`userSet` says which of the specs are for users the node will serve: the specs
without an email or a password are passed over, and so is one whose password
another user already has. -/

abbrev UserSet := AList fun _ : String => UserSpec

section
variable (hashPassword : String → PasswordHash)

def UserSet.hasHash (users : UserSet) (hash : PasswordHash) : Bool :=
  users.entries.any fun user => decide (hashPassword user.2.password = hash)

/-- The hash under which a user of the set is known. -/
def UserSet.hashOf (users : UserSet) (email : String) : Option PasswordHash :=
  (users.lookup email).map fun spec => hashPassword spec.password

def UserSet.enroll (users : UserSet) (spec : UserSpec) : UserSet :=
  if spec.email.isEmpty || spec.password.isEmpty then users
  else if users.hasHash hashPassword (hashPassword spec.password) then users
  else users.insert spec.email spec

def userSet (specs : List UserSpec) : UserSet := specs.foldl (UserSet.enroll hashPassword) ∅

end

end AnyTls
