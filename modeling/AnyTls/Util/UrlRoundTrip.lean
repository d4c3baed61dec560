import AnyTls.Util.UrlAgreement

/-! Printing a configuration as a URL and parsing it again. The parser for zones gives the password back as it
was printed, the crate's gives it back encoded once more; neither decodes it. So a password comes back exactly
if nothing in it is ever escaped. -/
namespace AnyTls

/-! ### The host -/

/-- `host.replace('%', "%25")`. -/
def escapedHost (host : Text) : Text := host.flatMap fun char => if char = '%' then "%25".toList else [char]

theorem escapedHost_append (first second) :
    escapedHost (first ++ second) = escapedHost first ++ escapedHost second := List.flatMap_append

theorem escapedHost_plain {host} (plain : '%' ∉ host) : escapedHost host = host := by
  induction host with
  | nil => rfl
  | cons char rest ih =>
    rw [List.mem_cons, not_or] at plain
    rw [escapedHost, List.flatMap_cons, if_neg (Ne.symm plain.1)]
    exact congrArg (char :: ·) (ih plain.2)

theorem mem_escapedHost {host char} (member : char ∈ escapedHost host) :
    char ∈ host ∨ char ∈ "%25".toList := by
  obtain ⟨original, inside, shown⟩ := List.mem_flatMap.mp member
  split_ifs at shown with percent
  · exact .inr shown
  · cases List.mem_singleton.mp shown
    exact .inl inside

theorem utf8_append (first second) : utf8 (first ++ second) = utf8 first ++ utf8 second := by
  rw [utf8_eq, utf8_eq, utf8_eq, List.flatMap_append]

theorem utf8_escapedHost (host) :
    utf8 (escapedHost host) = PercentEncoding.encode (fun byte => byte = PercentEncoding.percent) (utf8 host) := by
  induction host with
  | nil => rfl
  | cons char rest ih =>
    have split : escapedHost (char :: rest) = (if char = '%' then "%25".toList else [char]) ++ escapedHost rest :=
      List.flatMap_cons
    have first : utf8 (char :: rest) = utf8 [char] ++ utf8 rest := utf8_append [char] rest
    rw [split, first, utf8_append, ih, PercentEncoding.encode_append]
    refine congrArg (· ++ _) ?_
    split_ifs with percent
    · subst percent
      decide +kernel
    · refine (PercentEncoding.encode_eq_self fun byte member => ?_).symm
      rw [decide_eq_false_iff_not]
      rintro rfl
      rw [utf8_eq, List.flatMap_singleton] at member
      exact percent (Char.toNat_inj.mp (toNat_of_mem_utf8EncodeChar (by decide) member))

/-- A host with a zone is found again. -/
theorem zoneHost_escapedHost (address zone) :
    zoneHost (escapedHost (address ++ '%' :: zone)) = address ++ '%' :: zone := by
  have encoded : "%25".toList <:+: escapedHost (address ++ '%' :: zone) := by
    refine ⟨escapedHost address, escapedHost zone, ?_⟩
    rw [escapedHost_append, List.append_assoc]
    rfl
  rw [zoneHost, if_pos encoded, percentDecodeStr, utf8_escapedHost,
    PercentEncoding.decode_encode_of_percent (by decide), fromUtf8Lossy_utf8]

/-- The hosts of a server: a domain name or an IPv4 address, an IPv6 address, and one with a zone. -/
inductive Address.Hosted (crates : UrlCrates) (server : Address) : Prop where
  | name : server.isIpv6 = false → server.host ≠ [] → (∀ char ∈ server.host, domainChar char = true) →
      Hosted crates server
  | ipv6 (ip) : crates.ipv6 server.host = some ip → Hosted crates server
  | zoned (address ip zone) : server.host = address ++ '%' :: zone → crates.ipv6 address = some ip →
      (∀ char ∈ zone, zoneChar char = true) → Hosted crates server

theorem bracketedAddress_host_iff {crates host} (port) :
    (bracketedAddress crates host port).host = host ↔ (socketHost crates host).all (· = host) = true := by
  unfold bracketedAddress
  cases socketHost crates host with
  | none => simp
  | some ip => simp

/-! ### The query -/

theorem alphanum_range {char : Char} (alphanum : char.isAlphanum = true) :
    (48 ≤ char.toNat ∧ char.toNat ≤ 57) ∨ (65 ≤ char.toNat ∧ char.toNat ≤ 90) ∨
      (97 ≤ char.toNat ∧ char.toNat ≤ 122) := by
  have ranges : char.isAlphanum = ((decide (char.val ≥ 65 ∧ char.val ≤ 90) ||
      (decide (char.val ≥ 97) && decide (char.val ≤ 122))) ||
      (decide (char.val ≥ 48) && decide (char.val ≤ 57))) := rfl
  have code : char.val.toNat = char.toNat := rfl
  rw [ranges] at alphanum
  simp [UInt32.le_iff_toNat_le, code] at alphanum
  omega

theorem queryChar_of_formChar {char} (form : formChar char = true) : queryChar char = true := by
  simp only [formChar, alphanumericOr, Bool.and_eq_true, Bool.or_eq_true, decide_eq_true_eq] at form
  rw [queryChar, graphicBut_iff]
  rcases form.2 with alphanum | other
  · have range := alphanum_range alphanum
    simp
    omega
  · simp at other
    rcases other with rfl | rfl | rfl | rfl | rfl | rfl | rfl | rfl <;> decide

theorem UrlParts.mem_tail {parts : UrlParts} {char} (other : delimits char = false) :
    char ∈ parts.tail ↔ char ∈ parts.query.getD [] ∨ char ∈ parts.fragment.getD [] := by
  simp only [delimits, Bool.or_eq_false_iff, decide_eq_false_iff_not] at other
  obtain ⟨⟨slash, question⟩, hash⟩ := other
  have first : char ∉ (if parts.slash then ['/'] else [] : Text) := by
    cases parts.slash with
    | true => simpa using slash
    | false => exact List.not_mem_nil
  have second : char ∈ (parts.query.elim [] ('?' :: ·) : Text) ↔ char ∈ parts.query.getD [] := by
    cases parts.query with
    | none => rfl
    | some query => simp [question]
  have third : char ∈ (parts.fragment.elim [] ('#' :: ·) : Text) ↔ char ∈ parts.fragment.getD [] := by
    cases parts.fragment with
    | none => rfl
    | some fragment => simp [hash]
  rw [UrlParts.tail, List.mem_append, List.mem_append, second, third, or_iff_right first]

/-! ### The password -/

/-- A `/` in the user information hides the host from the test for a zone. -/
theorem slash_not_zone {user} (slash : '/' ∈ user) (unopened : '[' ∉ user) (rest) :
    isAnytlsIpv6ZoneUrl (ANYTLS_SCHEME ++ (user ++ rest)) = false := by
  obtain ⟨before, after, rfl, -⟩ := List.eq_append_cons_of_mem slash
  have authority : '[' ∉ (before ++ '/' :: after ++ rest).takeWhile fun char => !delimits char := by
    have early : '[' ∉ before := fun member => unopened (List.mem_append_left _ member)
    have stops : ('/' :: (after ++ rest)).takeWhile (fun char => !delimits char) = [] := rfl
    rw [List.append_assoc, List.cons_append, List.takeWhile_append, stops]
    split_ifs
    · simpa using early
    · exact fun member => early ((List.takeWhile_prefix _).subset member)
  have nothing : (((before ++ '/' :: after ++ rest).takeWhile fun char => !delimits char).reverse.takeWhile
      (· ≠ '@')).reverse.dropWhile (· ≠ '[') = [] := by
    refine List.dropWhile_eq_nil_iff.mpr (decide_ne_of_not_mem fun member => authority ?_)
    exact List.mem_reverse.mp ((List.takeWhile_prefix _).subset (List.mem_reverse.mp member))
  simp only [isAnytlsIpv6ZoneUrl, afterPrefix_append, Option.getD_some, nothing]

/-- The crate returns no password with a character that it escapes. -/
theorem parseAnytlsUrl_password {crates} (documented : crates.Documented) {raw config}
    (outside : isAnytlsIpv6ZoneUrl raw = false) (done : parseAnytlsUrl crates raw = .ok config) :
    ∀ char ∈ config.password, userinfoChar char = true := by
  rw [parseAnytlsUrl, outside, if_neg Bool.false_ne_true] at done
  split at done
  · cases done
  · rename_i url parsed
    have chars := documented.userinfo raw url parsed
    by_cases other : url.scheme ≠ "anytls".toList
    · rw [if_pos other] at done
      cases done
    · rw [if_neg other] at done
      split at done
      · cases done
      · rw [build_password done]
        intro char member
        split_ifs at member
        · exact chars char (List.mem_append_right _ member)
        · exact chars char (List.mem_append_left _ member)

/-- What the parser for zones gives back of a password is the password exactly if nothing in it is escaped
and it has no colon. -/
theorem zonePassword_restored_iff {password} (unslashed : '/' ∉ password) :
    zonePassword (percentEncodeUserinfo password) = password ↔
      password.all (fun char => zoneUserChar char && char ≠ ':') = true := by
  have spared : Spared USERINFO_ENCODE_SET ':' := ⟨by decide, by decide⟩
  have colon : ':' ∈ percentEncodeUserinfo password ↔ ':' ∈ password :=
    mem_utf8PercentEncode spared (by decide) (by decide) password
  constructor
  · intro same
    have single : ':' ∉ percentEncodeUserinfo password := by
      intro member
      obtain ⟨before, after, split, first⟩ := List.eq_append_cons_of_mem member
      rw [split, zonePassword, splitOnce_append first] at same
      dsimp only at same
      split_ifs at same with filled
      · exact first (same ▸ colon.mp member)
      · -- the encoding would decode to one byte more than the password does
        rw [not_not] at filled
        subst filled same
        have decoded := spares_userinfo.decode_encode after
        rw [show utf8PercentEncode USERINFO_ENCODE_SET after = [':'] ++ after from split, utf8_append,
          show utf8 [':'] = [58] by decide, List.singleton_append, PercentEncoding.decode_cons_ne (by decide)] at decoded
        exact List.cons_ne_self _ _ decoded
    rw [zonePassword, splitOnce_none single] at same
    dsimp only at same
    refine List.all_eq_true.mpr fun char member => ?_
    have printed := percentEncodeUserinfo_chars password char (by rwa [same])
    have slash : char ≠ '/' := by
      rintro rfl
      exact unslashed member
    have other : char ≠ ':' := by
      rintro rfl
      exact single (colon.mpr member)
    rw [zoneUserChar, printed, decide_eq_true slash, decide_eq_true other]
    rfl
  · intro plain
    simp only [List.all_eq_true, Bool.and_eq_true, decide_eq_true_eq] at plain
    have printed : ∀ char ∈ password, printedChar char = true := by
      intro char member
      have own := (plain char member).1
      rw [zoneUserChar, Bool.and_eq_true] at own
      exact own.1
    have single : ':' ∉ password := fun member => (plain ':' member).2 rfl
    rw [percentEncodeUserinfo_plain printed, zonePassword, splitOnce_none single]

namespace ClientRuntimeConfig
variable {crates : UrlCrates} {config : ClientRuntimeConfig}

def queryPairs (crates : UrlCrates) (config : ClientRuntimeConfig) : List (Text × Text) :=
  (config.sni.map fun sni => ("sni".toList, sni)).toList ++
    (if config.insecure then [("insecure".toList, "1".toList)] else []) ++
    (config.clientId.map fun id => ("client_id".toList, crates.uuidText id)).toList

theorem applyPairs_queryPairs (documented : crates.Documented) (config : ClientRuntimeConfig) :
    applyPairs crates ⟨none, false, none⟩ (config.queryPairs crates) =
      .ok ⟨config.sni, config.insecure, config.clientId⟩ := by
  have named (fields : QueryFields) (sni : Text) :
      fields.apply crates "sni".toList sni = .ok { fields with sni := some sni } := rfl
  have trusting (fields : QueryFields) :
      fields.apply crates "insecure".toList "1".toList = .ok { fields with insecure := true } := rfl
  have known (fields : QueryFields) (id : BitVec 128) :
      fields.apply crates "client_id".toList (crates.uuidText id) = .ok { fields with clientId := some id } := by
    have valid : "client_id".toList = "client_id".toList ∧ crates.uuidText id ≠ [] :=
      ⟨rfl, documented.uuid_filled id⟩
    rw [QueryFields.apply, if_neg (by decide), if_neg (by decide), if_neg (by decide), if_pos valid,
      documented.uuid id]
  obtain ⟨server, password, sni, clientId, insecure, displayName⟩ := config
  cases sni <;> cases insecure <;> cases clientId <;>
    simp only [queryPairs, Option.map_none, Option.map_some, Option.toList_none, Option.toList_some, if_true,
      Bool.false_eq_true, if_false, List.nil_append, List.cons_append, List.append_nil, applyPairs, named, trusting,
      known]

/-! ### The parts of the URL -/

/-- The parts a configuration is printed as. -/
def urlParts (crates : UrlCrates) (config : ClientRuntimeConfig) : UrlParts where
  userinfo := if config.password.isEmpty then none else some (percentEncodeUserinfo config.password)
  host :=
    if config.server.isIpv6 || (escapedHost config.server.host).contains ':' then
      '[' :: escapedHost config.server.host ++ [']']
    else escapedHost config.server.host
  port := if config.server.port = 443 then none else some (toString config.server.port.toNat).toList
  slash := !(config.queryPairs crates).isEmpty
  query := if (config.queryPairs crates).isEmpty then none else some (crates.serialize (config.queryPairs crates))
  fragment := config.displayName.map percentEncodeFragment

theorem toUrl_eq_text (documented : crates.Documented) (config : ClientRuntimeConfig) :
    config.toUrl crates = (config.urlParts crates).text := by
  have userinfo : (if config.password.isEmpty then [] else percentEncodeUserinfo config.password ++ ['@'] : Text) =
      (config.urlParts crates).userinfo.elim [] (· ++ ['@']) := by
    unfold urlParts
    split_ifs <;> rfl
  have authority : (if config.server.port = 443 then (config.urlParts crates).host
      else (config.urlParts crates).host ++ ':' :: (toString config.server.port.toNat).toList) =
      (config.urlParts crates).host ++ (config.urlParts crates).portPart := by
    rw [UrlParts.portPart]
    unfold urlParts
    by_cases usual : config.server.port = 443
    · simp only [if_pos usual, Option.elim_none, List.append_nil]
    · simp only [if_neg usual, Option.elim_some]
  have tail : (if (crates.serialize (config.queryPairs crates)).isEmpty then []
      else "/?".toList ++ crates.serialize (config.queryPairs crates)) ++
      (config.displayName.elim [] fun name => '#' :: percentEncodeFragment name : Text) =
      (config.urlParts crates).tail := by
    rw [UrlParts.tail]
    unfold urlParts
    cases pairs : config.queryPairs crates with
    | nil =>
      rw [documented.form_nil]
      cases config.displayName <;> rfl
    | cons pair rest =>
      have filled : (crates.serialize (pair :: rest)).isEmpty = false :=
        List.isEmpty_eq_false_iff.mpr (documented.form_cons pair rest)
      rw [filled]
      cases config.displayName <;> rfl
  have printed : config.toUrl crates = ANYTLS_SCHEME ++
      (if config.password.isEmpty then [] else percentEncodeUserinfo config.password ++ ['@']) ++
      (if config.server.port = 443 then (config.urlParts crates).host
        else (config.urlParts crates).host ++ ':' :: (toString config.server.port.toNat).toList) ++
      (if (crates.serialize (config.queryPairs crates)).isEmpty then []
        else "/?".toList ++ crates.serialize (config.queryPairs crates)) ++
      (config.displayName.elim [] fun name => '#' :: percentEncodeFragment name) := rfl
  rw [printed, userinfo, authority, List.append_assoc _ _ (config.displayName.elim _ _), tail, UrlParts.text,
    UrlParts.afterHost, ← List.append_assoc, ← List.append_assoc]
  rfl

theorem urlParts_host_name (crates) (unnumbered : config.server.isIpv6 = false)
    (chars : ∀ char ∈ config.server.host, domainChar char = true) :
    (config.urlParts crates).host = config.server.host := by
  have plain : escapedHost config.server.host = config.server.host :=
    escapedHost_plain (not_mem_of_all chars (by decide))
  have single : config.server.host.contains ':' = false := by
    have absent : ':' ∉ config.server.host := not_mem_of_all chars (by decide)
    simpa using absent
  simp only [urlParts, plain, unnumbered, single]
  rfl

theorem urlParts_host_colon (crates) (colon : ':' ∈ config.server.host) :
    (config.urlParts crates).host = '[' :: escapedHost config.server.host ++ [']'] := by
  have shown : (escapedHost config.server.host).contains ':' = true := by
    rw [List.contains_iff_mem]
    exact List.mem_flatMap.mpr ⟨':', colon, List.mem_singleton_self _⟩
  simp only [urlParts, shown, Bool.or_true, if_true]

theorem urlParts_shaped (documented : crates.Documented) {own}
    (user : ∀ char ∈ percentEncodeUserinfo config.password, own char = true) : (config.urlParts crates).Shaped own := by
  refine ⟨?_, ?_, ?_, ?_⟩
  · intro text given
    simp only [urlParts, Option.ite_none_left_eq_some, Option.some.injEq] at given
    obtain ⟨-, rfl⟩ := given
    exact user
  · intro text given
    simp only [urlParts, Option.ite_none_left_eq_some, Option.some.injEq, Nat.toString_eq_repr, Nat.toList_repr]
      at given
    obtain ⟨-, rfl⟩ := given
    exact fun char member => Nat.isDigit_of_mem_toDigits (by decide) (by decide) member
  · intro text given char member
    simp only [urlParts, Option.ite_none_left_eq_some, Option.some.injEq] at given
    obtain ⟨-, rfl⟩ := given
    exact queryChar_of_formChar (documented.form_chars _ char member)
  · intro text given
    obtain ⟨name, -, rfl⟩ := Option.map_eq_some_iff.mp given
    exact percentEncodeFragment_chars name

/-- Without a `/` in the password the parts are those that the parser for zones takes apart. -/
theorem urlParts_zoneShaped (documented : crates.Documented) (unslashed : '/' ∉ config.password) :
    (config.urlParts crates).Shaped zoneUserChar := by
  refine urlParts_shaped documented fun char member => ?_
  have slash : char ≠ '/' := by
    rintro rfl
    exact unslashed ((mem_utf8PercentEncode ⟨by decide, by decide⟩ (by decide) (by decide) _).mp member)
  rw [zoneUserChar, percentEncodeUserinfo_chars _ char member, decide_eq_true slash]
  rfl

theorem urlParts_port (crates) (config : ClientRuntimeConfig) : (config.urlParts crates).port ≠ some [] := by
  intro empty
  simp only [urlParts, Option.ite_none_left_eq_some, Option.some.injEq, Nat.toString_eq_repr, Nat.toList_repr] at empty
  exact Nat.toDigits_ne_nil empty.2

/-- The port is printed in full, or is the usual one. -/
theorem urlParts_portValue (crates) (config : ClientRuntimeConfig) :
    ∃ port, (config.urlParts crates).portValue = some port ∧ port.getD 443 = config.server.port := by
  by_cases usual : config.server.port = 443
  · refine ⟨none, ?_, usual.symm⟩
    rw [UrlParts.portValue, urlParts, if_pos usual]
  · have small := config.server.port.toNat_lt
    have given : (config.urlParts crates).port = some (Nat.toDigits 10 config.server.port.toNat) := by
      rw [urlParts, if_neg usual, Nat.toString_eq_repr, Nat.toList_repr]
    refine ⟨some config.server.port, ?_, rfl⟩
    rw [UrlParts.portValue_filled given Nat.toDigits_ne_nil, Nat.ofDigitChars_ten_toDigits, if_pos small, UInt16.ofNat_toNat]

theorem urlParts_userinfo (crates) (config : ClientRuntimeConfig) :
    (config.urlParts crates).userinfo.getD [] = percentEncodeUserinfo config.password := by
  unfold urlParts
  cases config.password with
  | nil => rfl
  | cons first rest => rfl

theorem query_serialized (documented : crates.Documented) (config : ClientRuntimeConfig) :
    (config.urlParts crates).query.getD [] = crates.serialize (config.queryPairs crates) := by
  unfold urlParts
  cases pairs : config.queryPairs crates with
  | nil =>
    rw [documented.form_nil]
    rfl
  | cons pair rest => rfl

/-! ### The round trip -/

/-- The configuration comes back; its server may be another kind of address with the same host and port. -/
def Restored (config : ClientRuntimeConfig) (read : Except UrlFailure ClientRuntimeConfig) : Prop :=
  ∃ server, read = .ok { config with server } ∧ server.host = config.server.host ∧ server.port = config.server.port

/-- Nothing in the password is escaped by the printer and it has neither `/` nor `:`, the first `@` ends the password,
a `?` of the name sets nothing, and the name is what it decodes to in two rounds. -/
def zonePrintable (crates : UrlCrates) (config : ClientRuntimeConfig) : Bool :=
  config.password.all (fun char => zoneUserChar char && char ≠ ':') &&
  ((!config.password.isEmpty || config.displayName.all (!·.contains '@')) &&
  ((!(config.queryPairs crates).isEmpty || config.displayName.all fun name =>
    queryFields crates (zoneQuery (percentEncodeFragment name)) = .ok ⟨none, false, none⟩) &&
  config.displayName.all fun name => percentDecodeStr (percentDecodeStr name) = name))

/-- The address is shown as it is given. For a host without a zone nothing in the password is escaped by the crate,
and the name has no escape of its own. -/
def printable (crates : UrlCrates) (config : ClientRuntimeConfig) : Bool :=
  (socketHost crates config.server.host).all (· = config.server.host) &&
  if config.server.host.contains '%' then config.zonePrintable crates
  else config.password.all userinfoChar && config.displayName.all fun name => percentDecodeStr name = name

theorem restored_build_iff {server password query fragment} :
    config.Restored (buildClientRuntimeConfig crates server password query fragment) ↔
      password = config.password ∧ queryFields crates query = .ok ⟨config.sni, config.insecure, config.clientId⟩ ∧
      fragmentName fragment = config.displayName ∧ server.host = config.server.host ∧
      server.port = config.server.port := by
  constructor
  · rintro ⟨server', done, host, port⟩
    cases read : queryFields crates query with
    | error error =>
      rw [build_error read] at done
      cases done
    | ok fields =>
      rw [build_ok read] at done
      obtain ⟨sni, insecure, clientId⟩ := fields
      simp only [Except.ok.injEq, ClientRuntimeConfig.mk.injEq] at done
      obtain ⟨rfl, password, rfl, rfl, rfl, name⟩ := done
      exact ⟨password, rfl, name, host, port⟩
  · rintro ⟨rfl, read, name, host, port⟩
    refine ⟨server, ?_, host, port⟩
    rw [build_ok read, name]

theorem filter_name_iff {name decoded : Text} (filled : name ≠ []) :
    (some decoded).filter (fun name => !name.isEmpty) = some name ↔ decoded = name := by
  rw [Option.filter_some]
  constructor
  · intro same
    split_ifs at same
    exact Option.some.inj same
  · rintro rfl
    rw [if_pos (by simpa using filled)]

section Names
variable (named : config.displayName ≠ some [])
include named

theorem name_restored_iff : fragmentName (config.urlParts crates).fragment = config.displayName ↔
    config.displayName.all (fun name => percentDecodeStr name = name) = true := by
  unfold urlParts
  cases given : config.displayName with
  | none => simp [fragmentName]
  | some name =>
    have filled : name ≠ [] := fun empty => named (given.trans (congrArg some empty))
    rw [fragmentName, Option.map_some, Option.map_some, filter_name_iff filled, percentDecodeStr_encodeFragment,
      Option.all_some, decide_eq_true_eq]

theorem zoneName_restored_iff :
    fragmentName (((config.urlParts crates).fragment.filter fun text => !text.isEmpty).map percentDecodeStr) =
      config.displayName ↔
    config.displayName.all (fun name => percentDecodeStr (percentDecodeStr name) = name) = true := by
  rw [fragmentName_decoded]
  unfold urlParts
  cases given : config.displayName with
  | none => simp
  | some name =>
    have filled : name ≠ [] := fun empty => named (given.trans (congrArg some empty))
    rw [Option.map_some, Option.map_some, filter_name_iff filled, percentDecodeStr_encodeFragment, Option.all_some,
      decide_eq_true_eq]

end Names

theorem queryFields_serialized (documented : crates.Documented) (config : ClientRuntimeConfig) :
    queryFields crates (crates.serialize (config.queryPairs crates)) =
      .ok ⟨config.sni, config.insecure, config.clientId⟩ := by
  rw [queryFields, documented.form, applyPairs_queryPairs documented]

/-- The query that the parser for zones finds sets what the printed one sets. -/
theorem zoneQuery_restored_iff (documented : crates.Documented) :
    queryFields crates ((config.urlParts crates).query.getD (zoneQuery ((config.urlParts crates).fragment.getD []))) =
      .ok ⟨config.sni, config.insecure, config.clientId⟩ ↔
    (!(config.queryPairs crates).isEmpty || config.displayName.all fun name =>
      queryFields crates (zoneQuery (percentEncodeFragment name)) = .ok ⟨none, false, none⟩) = true := by
  have printed := queryFields_serialized documented config
  unfold urlParts
  cases pairs : config.queryPairs crates with
  | cons pair rest =>
    rw [pairs] at printed
    simp [printed]
  | nil =>
    -- nothing is set in the configuration
    rw [pairs, documented.form_nil, UrlParts.queryFields_nil documented] at printed
    rw [← printed]
    cases config.displayName with
    | none => simp [zoneQuery, splitOnce, UrlParts.queryFields_nil documented]
    | some name => simp

/-- The `@` that the parser for zones finds ends the password. -/
theorem ownAt_urlParts (documented : crates.Documented) (config : ClientRuntimeConfig) :
    (config.urlParts crates).ownAt = (!config.password.isEmpty || config.displayName.all (!·.contains '@')) := by
  have query : '@' ∉ (config.urlParts crates).query.getD [] := by
    rw [query_serialized documented]
    exact not_mem_of_all (documented.form_chars _) (by decide)
  have inTail : '@' ∈ (config.urlParts crates).tail ↔ ∃ name, config.displayName = some name ∧ '@' ∈ name := by
    rw [UrlParts.mem_tail (by decide), or_iff_right query]
    unfold urlParts
    cases config.displayName with
    | none => simp
    | some name =>
      simp only [Option.map_some, Option.getD_some, Option.some.injEq, exists_eq_left']
      exact mem_utf8PercentEncode ⟨by decide, by decide⟩ (by decide) (by decide) name
  rw [Bool.eq_iff_iff, UrlParts.ownAt_iff, inTail]
  unfold urlParts
  cases config.displayName <;> simp

theorem slash_outside (documented : crates.Documented) (slashed : '/' ∈ config.password) :
    isAnytlsIpv6ZoneUrl (config.toUrl crates) = false := by
  have slash : '/' ∈ percentEncodeUserinfo config.password :=
    (mem_utf8PercentEncode ⟨by decide, by decide⟩ (by decide) (by decide) _).mpr slashed
  have unopened : '[' ∉ percentEncodeUserinfo config.password :=
    not_mem_of_all (percentEncodeUserinfo_chars config.password) (by decide)
  have filled : config.password.isEmpty = false := List.isEmpty_eq_false_iff.mpr (List.ne_nil_of_mem slashed)
  have text : config.toUrl crates = ANYTLS_SCHEME ++ (percentEncodeUserinfo config.password ++
      ('@' :: ((config.urlParts crates).host ++ (config.urlParts crates).afterHost))) := by
    have user : (config.urlParts crates).userinfo = some (percentEncodeUserinfo config.password) := by
      rw [urlParts, filled]
      rfl
    rw [toUrl_eq_text documented, UrlParts.text, user]
    simp
  rw [text]
  exact slash_not_zone slash unopened _

/-- A URL goes to the crate if its parts do not send it to the parser for zones. -/
theorem toUrl_outside (documented : crates.Documented)
    (outside : (config.urlParts crates).Shaped zoneUserChar →
      isAnytlsIpv6ZoneUrl (config.urlParts crates).text = false) :
    isAnytlsIpv6ZoneUrl (config.toUrl crates) = false := by
  by_cases slashed : '/' ∈ config.password
  · exact slash_outside documented slashed
  · rw [toUrl_eq_text documented]
    exact outside (urlParts_zoneShaped documented slashed)

section RoundTrip
variable (documented : crates.Documented) (named : config.displayName ≠ some [])
include documented named

/-- The round trip through the crate, once what a plain password is printed as is known to be read. -/
theorem crate_round_trip {server} (outside : isAnytlsIpv6ZoneUrl (config.toUrl crates) = false)
    (port : server.port = config.server.port)
    (parsed : (config.urlParts crates).Plain → parseAnytlsUrl crates (config.urlParts crates).text =
      buildClientRuntimeConfig crates server ((config.urlParts crates).userinfo.getD [])
        ((config.urlParts crates).query.getD []) (config.urlParts crates).fragment) :
    config.Restored (parseAnytlsUrl crates (config.toUrl crates)) ↔ server.host = config.server.host ∧
      config.password.all userinfoChar = true ∧ config.displayName.all (fun name => percentDecodeStr name = name) = true := by
  by_cases plain : ∀ char ∈ config.password, userinfoChar char = true
  · have printed : percentEncodeUserinfo config.password = config.password :=
      percentEncodeUserinfo_plain fun char member => graphicBut_mono (by decide) (plain char member)
    have shaped : (config.urlParts crates).Plain := urlParts_shaped documented (by rwa [printed])
    rw [toUrl_eq_text documented, parsed shaped, restored_build_iff, urlParts_userinfo, printed, query_serialized documented,
      queryFields_serialized documented, name_restored_iff named, List.all_eq_true]
    constructor
    · rintro ⟨-, -, name, host, -⟩
      exact ⟨host, plain, name⟩
    · rintro ⟨host, -, name⟩
      exact ⟨rfl, rfl, name, host, port⟩
  · refine iff_of_false ?_ fun all => plain (List.all_eq_true.mp all.2.1)
    rintro ⟨other, done, -⟩
    have chars := parseAnytlsUrl_password documented outside done
    exact plain chars

theorem zone_round_trip {address ip zone} (zoned : config.server.host = address ++ '%' :: zone)
    (valid : crates.ipv6 address = some ip) (chars : ∀ char ∈ zone, zoneChar char = true) :
    config.Restored (parseAnytlsUrl crates (config.toUrl crates)) ↔
      (socketHost crates config.server.host).all (· = config.server.host) = true ∧ config.zonePrintable crates = true := by
  rw [zonePrintable, Bool.and_eq_true, Bool.and_eq_true, Bool.and_eq_true]
  by_cases slashed : '/' ∈ config.password
  · refine iff_of_false ?_ fun all => ?_
    · rintro ⟨server, done, -⟩
      have plain := parseAnytlsUrl_password documented (slash_outside documented slashed) done
      cases plain '/' slashed
    · cases List.all_eq_true.mp all.2.1 '/' slashed
  obtain ⟨colon, -, addressChars⟩ := UrlParts.ipv6_plain documented valid
  have percent : '%' ∈ config.server.host := by simp [zoned]
  have bracketed : (config.urlParts crates).Bracketed (escapedHost config.server.host) := by
    refine ⟨urlParts_zoneShaped documented slashed, urlParts_host_colon crates (by simp [zoned, List.contains_iff_mem.mp colon]), ?_⟩
    intro char member
    rcases mem_escapedHost member with original | escape
    · rw [zoned, List.mem_append, List.mem_cons] at original
      rcases original with inside | rfl | inside
      · exact addressChars char inside
      · decide
      · exact chars char inside
    · have digits : "%25".toList.all zoneChar = true := by decide
      exact List.all_eq_true.mp digits char escape
  have isZone : isAnytlsIpv6ZoneUrl (config.urlParts crates).text = true := by
    rw [bracketed.isZone, List.contains_iff_mem]
    exact List.mem_flatMap.mpr ⟨'%', percent, by decide⟩
  have at_ := ownAt_urlParts documented config
  rw [toUrl_eq_text documented, parseAnytlsUrl, isZone, if_pos rfl, ← at_]
  cases own : (config.urlParts crates).ownAt with
  | false =>
    refine iff_of_false ?_ fun all => Bool.false_ne_true all.2.2.1
    rintro ⟨server, done, -⟩
    have apart := own
    rw [UrlParts.ownAt, Bool.or_eq_false_iff] at apart
    have password := (bracketed.zone_parse_mistaken crates (by simpa using apart.1) (by simpa using apart.2)).2 _ done
    rw [at_, Bool.or_eq_false_iff] at own
    exact password (by simpa using own.1)
  | true =>
    obtain ⟨port, value, same⟩ := urlParts_portValue crates config
    have found : zoneHost (escapedHost config.server.host) = config.server.host := by
      rw [zoned, zoneHost_escapedHost]
    have port' : (bracketedAddress crates config.server.host (port.getD 443)).port = config.server.port := by
      rw [bracketedAddress_port, same]
    rw [bracketed.zone_parse_filled crates (UrlParts.ownAt_iff.mp own) (urlParts_port crates config), value]
    simp only [found]
    rw [restored_build_iff, urlParts_userinfo, zonePassword_restored_iff slashed, zoneQuery_restored_iff documented,
      zoneName_restored_iff named, bracketedAddress_host_iff]
    constructor
    · rintro ⟨password, query, name, host, -⟩
      exact ⟨host, password, trivial, query, name⟩
    · rintro ⟨host, password, -, query, name⟩
      exact ⟨password, query, name, host, port'⟩

/-- A printed configuration is parsed as itself exactly if it is printable. -/
theorem url_round_trip (hosted : config.server.Hosted crates) :
    config.Restored (parseAnytlsUrl crates (config.toUrl crates)) ↔ config.printable crates = true := by
  obtain ⟨port, value, same⟩ := urlParts_portValue crates config
  rw [printable, Bool.and_eq_true]
  cases hosted with
  | name unnumbered filled chars =>
    have bare := urlParts_host_name crates unnumbered chars
    have percent : '%' ∉ config.server.host := not_mem_of_all chars (by decide)
    have unnumbered : socketHost crates config.server.host = none := by
      rw [socketHost, splitOnce_none percent, Option.eq_none_iff_forall_not_mem]
      intro ip valid
      exact not_mem_of_all chars (show domainChar ':' = false by decide) (documented.ipv6_chars _ ip valid).1
    have outside : isAnytlsIpv6ZoneUrl (config.toUrl crates) = false :=
      toUrl_outside documented fun shaped => shaped.not_zone (by rwa [bare])
    have port' : (⟨config.server.host, port.getD 443, false⟩ : Address).port = config.server.port := same
    have trip := crate_round_trip documented named outside port' fun plain => by
      rw [plain.domain_parse documented (by rwa [bare]) (by rwa [bare]) value, bare]
    rw [trip, unnumbered, if_neg (by simpa using percent), Bool.and_eq_true]
    simp
  | ipv6 ip valid =>
    obtain ⟨colon, percent, hostChars⟩ := UrlParts.ipv6_plain documented valid
    have brackets := urlParts_host_colon crates (List.contains_iff_mem.mp colon)
    rw [escapedHost_plain percent] at brackets
    have outside : isAnytlsIpv6ZoneUrl (config.toUrl crates) = false := by
      refine toUrl_outside documented fun shaped => ?_
      rw [UrlParts.Bracketed.isZone ⟨shaped, brackets, hostChars⟩]
      simpa using percent
    have trip := crate_round_trip documented named outside same fun plain => by
      rcases plain.address_parse documented brackets valid with ⟨port', value', parsed⟩ | ⟨missing, -⟩
      · cases value.symm.trans value'
        exact parsed
      · cases value.symm.trans missing
    rw [trip, UrlParts.socketHost_address percent valid, if_neg (by simpa using percent), Bool.and_eq_true, Option.all_some,
      decide_eq_true_eq]
  | zoned address ip zone zoned valid chars =>
    have percent : config.server.host.contains '%' = true := by simp [zoned]
    rw [zone_round_trip documented named zoned valid chars, percent, if_pos rfl]

end RoundTrip

/-- A server at a link-local address, with a name that needs escapes and a password that the crate would escape. -/
def linkLocal : ClientRuntimeConfig where
  server := ⟨"fe80:0:0:0:0:0:0:1".toList ++ '%' :: "eth0".toList, 8443, false⟩
  password := "c2VjcmV0MQ==".toList
  sni := some "a b&c".toList
  clientId := some 7
  insecure := true
  displayName := some "node 1 <née>?".toList

theorem linkLocal_restored :
    linkLocal.Restored (parseAnytlsUrl UrlReference.crates (linkLocal.toUrl UrlReference.crates)) := by
  have named : linkLocal.displayName ≠ some [] := by decide
  have printable : linkLocal.printable UrlReference.crates = true := by decide +kernel
  have valid : UrlReference.crates.ipv6 "fe80:0:0:0:0:0:0:1".toList = some "fe80:0:0:0:0:0:0:1".toList := by
    decide +kernel
  have chars : ∀ char ∈ "eth0".toList, zoneChar char = true := List.all_eq_true.mp (by decide +kernel)
  exact (url_round_trip UrlReference.documented named (.zoned _ _ _ rfl valid chars)).mpr printable

/-- A password with an `@` comes back escaped, a name that has an escape comes back decoded,
and a zone that is a number is lost. -/
theorem escaped_not_restored :
    (parseAnytlsUrl UrlReference.crates
      (toUrl UrlReference.crates ⟨⟨"example.com".toList, 443, false⟩, "p@ss".toList, none, none, false, none⟩) =
      .ok ⟨⟨"example.com".toList, 443, false⟩, "p%40ss".toList, none, none, false, none⟩) ∧
    (parseAnytlsUrl UrlReference.crates
      (toUrl UrlReference.crates ⟨⟨"example.com".toList, 443, false⟩, [], none, none, false, some "50%41".toList⟩) =
      .ok ⟨⟨"example.com".toList, 443, false⟩, [], none, none, false, some "50A".toList⟩) ∧
    (parseAnytlsUrl UrlReference.crates
      (toUrl UrlReference.crates ⟨⟨"fe80:0:0:0:0:0:0:1%2".toList, 443, false⟩, [], none, none, false, none⟩) =
      .ok ⟨⟨"fe80:0:0:0:0:0:0:1".toList, 443, true⟩, [], none, none, false, none⟩) := by
  decide +kernel

end ClientRuntimeConfig

end AnyTls
