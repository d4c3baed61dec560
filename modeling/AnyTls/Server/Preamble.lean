import AnyTls.Client.Lifecycle
import AnyTls.Core.TextRoundTrip
import AnyTls.Library.Segments
import AnyTls.NodeApi.Users
import AnyTls.Util.UrlGrammar

/-! The authentication preamble, from the bytes `dail_out_callback` writes on a new connection to
what `handle_connection` of `bin/server.rs` reads of them. The two compute the layout separately:
the client from its padding scheme and its id, the server from the length field. The `uuid` crate
is an argument. -/
namespace AnyTls

/-! ### The server's side -/

inductive AuthOutcome where
  | rejected
  /-- authenticated by the shared password -/
  | anonymous
  | user (user : AuthedUser)

inductive Authenticator where
  | sharedPassword (expected : Bytes)
  | users (registry : UserRegistry)

def Authenticator.authenticate (passwordHash : Bytes) (now : Int64) : Authenticator → AuthOutcome × Authenticator
  | .sharedPassword expected =>
    (if passwordHash = expected then .anonymous else .rejected, .sharedPassword expected)
  | .users registry =>
    match registry.authenticate passwordHash now with
    | some (user, registry) => (.user user, .users registry)
    | none => (.rejected, .users registry)

/-- What `uuid` provides: `to_string` and `parse_str`. -/
structure UuidCrate where
  toText : BitVec 128 → String
  parseStr : String → Option (BitVec 128)

def nul : Char := Char.ofNat 0

/-- `str::trim_end_matches`. -/
def trimEndMatches (char : Char) (text : Text) : Text := (text.reverse.dropWhile (· = char)).reverse

def UUID_STR_LEN : Nat := 36

def extractClientIdFromPadding (uuid : UuidCrate) (paddingData : Bytes) : Option (BitVec 128) :=
  if paddingData.length < UUID_STR_LEN then none
  else
    match fromUtf8 (paddingData.take UUID_STR_LEN) with
    | none => none
    | some text =>
      let candidate := trim (trimEndMatches nul text)
      if (candidate.flatMap String.utf8EncodeChar).length ≠ UUID_STR_LEN then none
      else uuid.parseStr (String.ofList candidate)

/-- How the reading of a preamble ends. `rest` is what the connection has still to give. -/
inductive PreambleRead where
  /-- not authenticated: the bytes read are handed to a relay or dropped -/
  | rejected (authData : Bytes) (rest : List Bytes)
  | failed (error : IoError)
  | accepted (passwordHash : Bytes) (outcome : AuthOutcome) (clientId : Option (BitVec 128)) (rest : List Bytes)

/-- The part of `handle_connection` that reads the preamble, from a connection whose bytes arrive in
segments. -/
def readPreamble (uuid : UuidCrate) (authenticator : Authenticator) (now : Int64) (connection : List Bytes) : PreambleRead :=
  let (authData, rest) := Segments.fill 34 connection
  let outcome :=
    if authData.length = 34 then (authenticator.authenticate (authData.take 32) now).1 else .rejected
  match outcome with
  | .rejected => .rejected authData rest
  | outcome =>
    let paddingLen := BigEndian.value (authData.drop 32)
    if paddingLen > 0 then
      let (paddingData, rest) := Segments.fill paddingLen rest
      if paddingData.length < paddingLen then .failed .earlyEof
      else .accepted (authData.take 32) outcome (extractClientIdFromPadding uuid paddingData) rest
    else .accepted (authData.take 32) outcome none rest

/-! ### The client id in the padding -/

/-- A hexadecimal digit or a hyphen. -/
def uuidChar (char : Char) : Bool :=
  (48 ≤ char.toNat && char.toNat ≤ 57) || (97 ≤ char.toNat && char.toNat ≤ 102) || char.toNat = 45

/-- The id prints as 36 hexadecimal digits and hyphens, which are read back as the id. -/
structure UuidCrate.Prints (uuid : UuidCrate) (id : BitVec 128) : Prop where
  size : (uuid.toText id).toList.length = UUID_STR_LEN
  plain : ∀ char ∈ (uuid.toText id).toList, uuidChar char = true
  back : uuid.parseStr (uuid.toText id) = some id

theorem uuidChar_range {char} (plain : uuidChar char = true) : 45 ≤ char.toNat ∧ char.toNat ≤ 102 := by
  simp only [uuidChar, Bool.or_eq_true, Bool.and_eq_true, decide_eq_true_eq] at plain
  omega

theorem uuidChar_not_whitespace {char} (plain : uuidChar char = true) : isWhitespace char = false := by
  have range := uuidChar_range plain
  simp only [isWhitespace, Bool.or_eq_false_iff, Bool.and_eq_false_iff, decide_eq_false_iff_not]
  omega

theorem uuidChar_encoded {char} (plain : uuidChar char = true) : (String.utf8EncodeChar char).length = 1 := by
  have range := uuidChar_range plain
  have code : char.val.toNat = char.toNat := rfl
  have small : char.val ≤ 0x7f := by
    rw [UInt32.le_iff_toNat_le, code]
    exact Nat.le_trans range.2 (by decide)
  rw [String.length_utf8EncodeChar]
  exact if_pos small

theorem encoded_length {text : Text} (plain : ∀ char ∈ text, uuidChar char = true) :
    (text.flatMap String.utf8EncodeChar).length = text.length := by
  induction text with
  | nil => rfl
  | cons char rest ih =>
    rw [List.flatMap_cons, List.length_append, uuidChar_encoded (plain char List.mem_cons_self),
      ih fun other member => plain other (List.mem_cons_of_mem _ member), List.length_cons, Nat.add_comm]

theorem trimEndMatches_plain {char text} (absent : char ∉ text) : trimEndMatches char text = text := by
  have kept : text.reverse.dropWhile (· = char) = text.reverse := by
    cases reversed : text.reverse with
    | nil => rfl
    | cons last rest =>
      have member : last ∈ text := by
        rw [← List.mem_reverse, reversed]
        exact List.mem_cons_self
      rw [List.dropWhile_cons_of_neg]
      rw [decide_eq_true_eq]
      rintro rfl
      exact absent member
  rw [trimEndMatches, kept, List.reverse_reverse]

/-- The id at the start of the padding is found. -/
theorem extract_printed {uuid : UuidCrate} {id} (prints : uuid.Prints id) (more) :
    extractClientIdFromPadding uuid (asBytes (uuid.toText id) ++ more) = some id := by
  have size : (asBytes (uuid.toText id)).length = UUID_STR_LEN := (encoded_length prints.plain).trans prints.size
  have long : ¬ (asBytes (uuid.toText id) ++ more).length < UUID_STR_LEN := by
    rw [List.length_append, size]
    omega
  have visible : ∀ char ∈ (uuid.toText id).toList, isWhitespace char = false := fun char member =>
    uuidChar_not_whitespace (prints.plain char member)
  have absent : nul ∉ (uuid.toText id).toList := by
    intro member
    have range := uuidChar_range (prints.plain nul member)
    exact absurd range.1 (by decide)
  rw [extractClientIdFromPadding, if_neg long, List.take_left' size, fromUtf8_asBytes]
  simp only [trimEndMatches_plain absent, trim_plain visible, encoded_length prints.plain, prints.size, ne_eq,
    not_true_eq_false, if_false, String.ofList_toList, prints.back]

/-- Zeros are no id. -/
theorem extract_zeros (uuid count) :
    extractClientIdFromPadding uuid (List.replicate count 0) = none := by
  unfold extractClientIdFromPadding
  split_ifs with short
  · rfl
  · rw [List.length_replicate, Nat.not_lt] at short
    have zeros : fromUtf8 ((List.replicate count 0).take UUID_STR_LEN) = some (List.replicate UUID_STR_LEN nul) := by
      rw [List.take_replicate, Nat.min_eq_left short]
      decide
    have blank : trim (trimEndMatches nul (List.replicate UUID_STR_LEN nul)) = [] := by decide
    simp only [zeros, blank]
    rfl

/-! ### The layout -/

/-- `client_id.map(|id| id.to_string().into_bytes()).unwrap_or_default()`. -/
def clientIdBytes (uuid : UuidCrate) (clientId : Option (BitVec 128)) : Bytes :=
  clientId.elim [] fun id => asBytes (uuid.toText id)

theorem preamblePadding_lt (random : Nat → Int → Int → Int) (padding clientId) :
    preamblePadding random padding clientId < 2 ^ 16 := by
  have second := Nat.mod_lt clientId.length (show 0 < 2 ^ 16 by decide)
  unfold preamblePadding
  cases padding.generateRecordPayloadSizes random 0 with
  | nil =>
    simp only
    split_ifs
    · decide
    · exact Nat.max_lt.mpr ⟨by decide, second⟩
  | cons size sizes =>
    have first : (size % 2 ^ 16).toNat < 2 ^ 16 := by
      refine (Int.toNat_lt (Int.emod_nonneg size (by decide))).mpr ?_
      exact Int.emod_lt_of_pos size (by decide)
    simp only
    split_ifs
    · exact first
    · exact Nat.max_lt.mpr ⟨first, second⟩

theorem clientId_fits (random : Nat → Int → Int → Int) (padding) {uuid : UuidCrate} {clientId}
    (prints : ∀ id ∈ clientId, uuid.Prints id) :
    (clientIdBytes uuid clientId).length ≤ preamblePadding random padding (clientIdBytes uuid clientId) := by
  cases clientId with
  | none => exact Nat.zero_le _
  | some id =>
    have size : (asBytes (uuid.toText id)).length = 36 :=
      (encoded_length (prints id rfl).plain).trans (prints id rfl).size
    have filled : (asBytes (uuid.toText id)).isEmpty = false := by
      rw [← Bool.not_eq_true, List.isEmpty_iff]
      intro empty
      rw [empty] at size
      cases size
    simp only [clientIdBytes, Option.elim, preamblePadding, filled, Bool.false_eq_true, if_false, size]
    exact Nat.le_max_right _ _

/-- The padding the client sends, as the server reads it. -/
theorem extract_padding {uuid clientId} (prints : ∀ id ∈ clientId, uuid.Prints id) (zeros) :
    extractClientIdFromPadding uuid (clientIdBytes uuid clientId ++ List.replicate zeros 0) = clientId := by
  cases clientId with
  | none => exact extract_zeros uuid zeros
  | some id => exact extract_printed (prints id rfl) _

/-- How the reading goes on when the hash is accepted. -/
theorem readPreamble_accepted {uuid authenticator now connection passwordHash lengthField}
    (hashed : passwordHash.length = 32) (two : lengthField.length = 2)
    (first : (Segments.fill 34 connection).1 = passwordHash ++ lengthField)
    (known : (authenticator.authenticate passwordHash now).1 ≠ .rejected) :
    readPreamble uuid authenticator now connection =
      if BigEndian.value lengthField > 0 then
        if (Segments.fill (BigEndian.value lengthField) (Segments.fill 34 connection).2).1.length <
            BigEndian.value lengthField then .failed .earlyEof
        else .accepted passwordHash (authenticator.authenticate passwordHash now).1
          (extractClientIdFromPadding uuid
            (Segments.fill (BigEndian.value lengthField) (Segments.fill 34 connection).2).1)
          (Segments.fill (BigEndian.value lengthField) (Segments.fill 34 connection).2).2
      else .accepted passwordHash (authenticator.authenticate passwordHash now).1 none (Segments.fill 34 connection).2 := by
  have full : (passwordHash ++ lengthField).length = 34 := by rw [List.length_append, hashed, two]
  simp only [readPreamble, first, full, if_true, List.take_left' hashed, List.drop_left' hashed]

/-- For every password hash, padding scheme, draw and client id, whatever follows the preamble and
however the connection is cut into segments: if the hash is accepted, the server reads the hash and
the client id that the client has sent, and leaves the connection at the byte after the preamble. -/
theorem preamble_agreement (uuid : UuidCrate) (authenticator : Authenticator) (now : Int64) (random : Nat → Int → Int → Int)
    (padding : PaddingFactory) (passwordSha256 : Bytes) (clientId : Option (BitVec 128)) (following : Bytes)
    (connection : List Bytes) (hashed : passwordSha256.length = 32) (prints : ∀ id ∈ clientId, uuid.Prints id)
    (sent : connection.flatten =
      authPreamble random padding passwordSha256 (clientIdBytes uuid clientId) ++ following)
    (known : (authenticator.authenticate passwordSha256 now).1 ≠ .rejected) :
    ∃ rest, readPreamble uuid authenticator now connection =
        .accepted passwordSha256 (authenticator.authenticate passwordSha256 now).1 clientId rest ∧
      rest.flatten = following := by
  have fits := clientId_fits random padding prints
  have small := preamblePadding_lt random padding (clientIdBytes uuid clientId)
  rw [authPreamble] at sent
  generalize preamblePadding random padding (clientIdBytes uuid clientId) = paddingLen at sent fits small
  have size : (passwordSha256 ++ BigEndian.bytes 2 paddingLen).length = 34 := by
    rw [List.length_append, hashed, BigEndian.bytes_length]
  have body : (clientIdBytes uuid clientId ++
      List.replicate (paddingLen - (clientIdBytes uuid clientId).length) 0).length = paddingLen := by
    rw [List.length_append, List.length_replicate]
    omega
  have value : BigEndian.value (BigEndian.bytes 2 paddingLen) = paddingLen := by
    rw [BigEndian.value_bytes]
    exact Nat.mod_eq_of_lt small
  have first : (Segments.fill 34 connection).1 = passwordSha256 ++ BigEndian.bytes 2 paddingLen := by
    rw [Segments.fill_take, sent, List.append_assoc _ _ following, List.take_left' size]
  have left : (Segments.fill 34 connection).2.flatten = clientIdBytes uuid clientId ++
      List.replicate (paddingLen - (clientIdBytes uuid clientId).length) 0 ++ following := by
    rw [Segments.fill_drop, sent, List.append_assoc _ _ following, List.drop_left' size]
  have second : (Segments.fill paddingLen (Segments.fill 34 connection).2).1 = clientIdBytes uuid clientId ++
      List.replicate (paddingLen - (clientIdBytes uuid clientId).length) 0 := by
    rw [Segments.fill_take, left, List.take_left' body]
  have rest : (Segments.fill paddingLen (Segments.fill 34 connection).2).2.flatten = following := by
    rw [Segments.fill_drop, left, List.drop_left' body]
  rw [readPreamble_accepted hashed (BigEndian.bytes_length ..) first known, value, second]
  split_ifs with some short
  · exact absurd (body ▸ short) (Nat.lt_irrefl _)
  · refine ⟨_, ?_, rest⟩
    rw [extract_padding prints]
  · -- no padding: there is no id either
    have none : paddingLen = 0 := Nat.eq_zero_of_not_pos some
    subst none
    have empty : clientIdBytes uuid clientId = [] := List.length_eq_zero_iff.mp (Nat.le_zero.mp fits)
    have absent := extract_padding prints 0
    rw [empty] at absent left
    exact ⟨_, by rw [← absent]; rfl, left⟩

/-- A crate that knows one id. -/
def oneUuid : UuidCrate where
  toText _ := "67e55044-10b1-426f-9247-bb680e5fe0c8"
  parseStr text := if text = "67e55044-10b1-426f-9247-bb680e5fe0c8" then some 1 else none

/-- The default scheme pads the preamble with 30 bytes, which the id raises to 36. -/
theorem preamble_agreement_thirty :
    ∃ rest, readPreamble oneUuid (.sharedPassword (List.replicate 32 7)) 0
        ([List.replicate 20 7, List.replicate 12 7 ++ [0], [36]] ++ [asBytes "67e55044-10b1-426f-9247-bb680e5fe0c8", [1, 2]]) =
        .accepted (List.replicate 32 7) .anonymous (some 1) rest ∧ rest.flatten = [1, 2] := by
  have prints : ∀ id ∈ some (1 : BitVec 128), oneUuid.Prints id := by
    intro id member
    cases member
    exact ⟨by decide, List.all_eq_true.mp (by decide), by decide⟩
  exact preamble_agreement oneUuid (.sharedPassword (List.replicate 32 7)) 0 (fun _ low _ => low)
    ⟨(∅ : StringMap).insert "0" "30-30", [], 8, ""⟩ (List.replicate 32 7) (some 1) [1, 2] _ rfl prints (by decide) (by rintro ⟨⟩)

end AnyTls
