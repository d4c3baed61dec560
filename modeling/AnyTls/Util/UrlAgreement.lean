import AnyTls.Util.UrlReference

/-! The two parsers of a connection URL: the program's own for an IPv6 host with a zone, and
the crate's for all others. They take the same text apart in the same way exactly when the first
`@` ends the user information, the port is not empty, a `?` of the fragment sets nothing, and the
name that is decoded once has no escape left, or when both refuse the text. -/
namespace AnyTls

/-- Both fail, or both succeed with the same settings for a server at the same port. -/
inductive SameSettings :
    Except UrlFailure ClientRuntimeConfig → Except UrlFailure ClientRuntimeConfig → Prop where
  | settings {first second} : first.server.port = second.server.port →
      first.password = second.password → first.sni = second.sni → first.clientId = second.clientId →
      first.insecure = second.insecure → first.displayName = second.displayName →
      SameSettings (.ok first) (.ok second)
  | failures (first second) : SameSettings (.error first) (.error second)

theorem sameSettings_ok (first second) :
    (first.server.port = second.server.port ∧ first.password = second.password ∧ first.sni = second.sni ∧
      first.clientId = second.clientId ∧ first.insecure = second.insecure ∧
      first.displayName = second.displayName) ↔ SameSettings (.ok first) (.ok second) := by
  constructor
  · rintro ⟨port, password, sni, clientId, insecure, displayName⟩
    exact .settings port password sni clientId insecure displayName
  · rintro ⟨port, password, sni, clientId, insecure, displayName⟩
    exact ⟨port, password, sni, clientId, insecure, displayName⟩

instance : (first second : Except UrlFailure ClientRuntimeConfig) → Decidable (SameSettings first second)
  | .ok first, .ok second => decidable_of_iff _ (sameSettings_ok first second)
  | .error first, .error second => isTrue (.failures first second)
  | .ok _, .error _ => isFalse (by rintro ⟨⟩)
  | .error _, .ok _ => isFalse (by rintro ⟨⟩)

theorem bracketedAddress_port (crates host port) :
    (bracketedAddress crates host port).port = port := by
  unfold bracketedAddress
  split <;> rfl

/-- What the parameters of a query set. -/
def queryFields (crates : UrlCrates) (query : Text) : Except UrlFailure QueryFields :=
  applyPairs crates ⟨none, false, none⟩ (crates.formParse query)

/-- The name that a fragment stands for. -/
def fragmentName (fragment : Option Text) : Option Text :=
  (fragment.map percentDecodeStr).filter fun name => !name.isEmpty

section
variable {crates : UrlCrates} {server first second : Address} {password other query query' : Text}
  {fragment fragment' : Option Text} {fields : QueryFields}

theorem build_ok (read : queryFields crates query = .ok fields) :
    buildClientRuntimeConfig crates server password query fragment =
      .ok ⟨server, password, fields.sni, fields.clientId, fields.insecure, fragmentName fragment⟩ := by
  unfold queryFields at read
  rw [buildClientRuntimeConfig, read, fragmentName]

theorem build_error {error} (refused : queryFields crates query = .error error) :
    buildClientRuntimeConfig crates server password query fragment = .error error := by
  unfold queryFields at refused
  rw [buildClientRuntimeConfig, refused]

theorem build_isOk : (buildClientRuntimeConfig crates server password query fragment).isOk =
    (queryFields crates query).isOk := by
  cases read : queryFields crates query with
  | ok fields => rw [build_ok read]; rfl
  | error error => rw [build_error read]; rfl

theorem build_password {config}
    (done : buildClientRuntimeConfig crates server password query fragment = .ok config) : config.password = password := by
  cases read : queryFields crates query with
  | ok fields =>
    rw [build_ok read] at done
    cases done
    rfl
  | error error =>
    rw [build_error read] at done
    cases done

theorem SameSettings.isOk {one two} (same : SameSettings one two) :
    one.isOk = two.isOk := by
  cases same with
  | settings => rfl
  | failures => rfl

end

theorem percentDecodeStr_nil : percentDecodeStr [] = [] := by decide +kernel

/-- The fragment that is decoded twice. -/
theorem fragmentName_decoded (fragment : Option Text) :
    fragmentName ((fragment.filter fun text => !text.isEmpty).map percentDecodeStr) =
      ((fragment.map fun text => percentDecodeStr (percentDecodeStr text)).filter fun name => !name.isEmpty) := by
  cases fragment with
  | none => simp only [fragmentName, Option.filter_none, Option.map_none]
  | some text =>
    cases text with
    | nil =>
      have blank : (some ([] : Text)).filter (fun text => !text.isEmpty) = none := rfl
      rw [Option.map_some, percentDecodeStr_nil, percentDecodeStr_nil, blank, fragmentName]
      simp only [Option.map_none, Option.filter_none]
    | cons first rest =>
      rw [Option.filter_some, List.isEmpty_cons, if_pos (by decide), fragmentName, Option.map_some, Option.map_some,
        Option.map_some]

theorem zonePassword_ne_nil {char} (other : char ≠ ':') (rest) : zonePassword (char :: rest) ≠ [] := by
  unfold zonePassword
  rw [splitOnce, if_neg other]
  cases splitOnce ':' rest with
  | none => exact List.cons_ne_nil char rest
  | some split =>
    rw [Option.map_some]
    dsimp only
    rw [if_pos (List.cons_ne_nil char split.1)]
    exact List.cons_ne_nil char split.1

/-- What the parser for zones accepts after an `@`: a text in brackets, then a port that can be read if there is a
colon, then a query that can be read. -/
def acceptedAfterAt (crates : UrlCrates) (rest : Text) : Bool :=
  match splitOnce ']' rest with
  | none => false
  | some (front, after) => front.contains '[' &&
    match zonePort after with
    | .error _ => false
    | .ok (_, left) => (queryFields crates (zoneQuery left)).isOk

theorem findIdx?_of_mem {front char} (rest : Text) (member : char ∈ front) :
    ∃ i < front.length, (front ++ rest).findIdx? (· = char) = some i := by
  obtain ⟨before, after, rfl, first⟩ := List.eq_append_cons_of_mem member
  refine ⟨before.length, by simp, ?_⟩
  rw [List.append_assoc, List.cons_append]
  exact findIdx?_append_stop (decide_eq_false_of_not_mem first) (by simp)

theorem findIdx?_of_not_mem {text : Text} {char} (absent : char ∉ text) : text.findIdx? (· = char) = none :=
  List.findIdx?_eq_none_iff.mpr (decide_eq_false_of_not_mem absent)

/-- What the parser for zones makes of a text by its first `@`. -/
theorem zone_parse_at (crates : UrlCrates) {user} (absent : '@' ∉ user) (rest : Text) :
    (parseAnytlsUrlIpv6Zone crates (ANYTLS_SCHEME ++ (user ++ '@' :: rest))).isOk = acceptedAfterAt crates rest ∧
    ∀ config, parseAnytlsUrlIpv6Zone crates (ANYTLS_SCHEME ++ (user ++ '@' :: rest)) = .ok config →
      config.password = zonePassword user := by
  simp only [parseAnytlsUrlIpv6Zone, afterPrefix_append, splitOnce_append absent, Option.getD_some, acceptedAfterAt]
  by_cases closed : ']' ∈ rest
  · obtain ⟨front, after, rfl, first⟩ := List.eq_append_cons_of_mem closed
    have closes : (front ++ ']' :: after).findIdx? (· = ']') = some front.length :=
      findIdx?_append_stop (decide_eq_false_of_not_mem first) (by simp)
    have left : (front ++ ']' :: after).drop (front.length + 1) = after := by simp
    simp only [splitOnce_append first, closes]
    by_cases opened : '[' ∈ front
    · obtain ⟨start, before, opens⟩ := findIdx?_of_mem (']' :: after) opened
      simp only [opens, List.contains_iff_mem.mpr opened, Bool.true_and, if_neg (show ¬ front.length < start + 1 by omega),
        left]
      cases zonePort after with
      | error error => exact ⟨rfl, nofun⟩
      | ok read => exact ⟨build_isOk, fun config done => build_password done⟩
    · have unopened : front.contains '[' = false := by simpa using opened
      simp only [unopened, Bool.false_and]
      cases opens : (front ++ ']' :: after).findIdx? (· = '[') with
      | none => exact ⟨rfl, nofun⟩
      | some start =>
        have late : front.length < start + 1 := by
          rw [List.findIdx?_append, findIdx?_of_not_mem opened, Option.none_or] at opens
          obtain ⟨i, -, rfl⟩ := Option.map_eq_some_iff.mp opens
          omega
        simp only [if_pos late]
        exact ⟨rfl, nofun⟩
  · simp only [splitOnce_none closed, findIdx?_of_not_mem closed]
    cases rest.findIdx? (· = '[') with
    | none => exact ⟨rfl, nofun⟩
    | some start => exact ⟨rfl, nofun⟩

namespace UrlParts
variable {parts : UrlParts} {address zone ip : Text} {crates : UrlCrates}

/-- The parser of the crate accepts the URL. -/
def accepted (crates : UrlCrates) (parts : UrlParts) : Bool :=
  parts.portValue.isSome && (queryFields crates (parts.query.getD [])).isOk

/-- The first `@` ends the user information. -/
def ownAt (parts : UrlParts) : Bool := parts.userinfo.isSome || !parts.tail.contains '@'

theorem ownAt_iff : parts.ownAt = true ↔ parts.userinfo.isSome = true ∨ '@' ∉ parts.tail := by
  simp [ownAt]

/-- An `@` after the host takes it for the password. -/
theorem Bracketed.zone_parse_mistaken {host} (crates) (bracketed : parts.Bracketed host)
    (bare : parts.userinfo = none) (misplaced : '@' ∈ parts.tail) :
    (parseAnytlsUrlIpv6Zone crates parts.text).isOk =
      acceptedAfterAt crates ((splitOnce '@' parts.tail).elim [] Prod.snd) ∧
    ∀ config, parseAnytlsUrlIpv6Zone crates parts.text = .ok config → config.password ≠ [] := by
  obtain ⟨before, after, split, first⟩ := List.eq_append_cons_of_mem misplaced
  have user : '@' ∉ '[' :: (host ++ ']' :: (parts.portPart ++ before)) := by
    have free : '@' ∉ host := not_mem_of_all bracketed.chars (by decide)
    have port : '@' ∉ parts.portPart := fun member => (mem_portPart bracketed.shaped '@' member).2 rfl
    simp [free, port, first]
  have whole : parts.text = ANYTLS_SCHEME ++ ('[' :: (host ++ ']' :: (parts.portPart ++ before)) ++ '@' :: after) := by
    rw [text, bare, bracketed.brackets, afterHost, split]
    simp [portPart]
  obtain ⟨accepted, password⟩ := zone_parse_at crates user after
  rw [whole, split, splitOnce_append first]
  refine ⟨accepted, fun config done => ?_⟩
  rw [password config done]
  exact zonePassword_ne_nil (by decide) _

theorem queryFields_nil (documented : crates.Documented) : queryFields crates [] = .ok ⟨none, false, none⟩ := by
  have none := documented.form []
  rw [documented.form_nil] at none
  rw [queryFields, none, applyPairs]

/-- What the parser of the crate makes of the URL without its zone. -/
inductive CrateReads (crates : UrlCrates) (parts : UrlParts) : Except UrlFailure ClientRuntimeConfig → Prop where
  | reads (server port) : parts.portValue = some port → server.port = port.getD 443 → CrateReads crates parts
        (buildClientRuntimeConfig crates server (parts.userinfo.getD []) (parts.query.getD []) parts.fragment)
  | refuses (error) : parts.portValue = none → CrateReads crates parts (.error error)

section Agreement
variable {host : Text} {read : Except UrlFailure ClientRuntimeConfig}

theorem CrateReads.isOk (reads : CrateReads crates parts read) : read.isOk = parts.accepted crates := by
  cases reads with
  | reads server port value =>
    rw [build_isOk, accepted, value]
    rfl
  | refuses error value =>
    rw [accepted, value]
    rfl

end Agreement

end UrlParts

end AnyTls
