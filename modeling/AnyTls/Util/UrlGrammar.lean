import AnyTls.Core.TextRoundTrip
import AnyTls.Util.ParseUrl
import Mathlib.Data.List.TakeWhile

/-! URLs put together from their parts, what the crates are documented to make of them,
and what the parser for zones makes of them. -/
namespace AnyTls

/-! ### Characters -/

/-- An ASCII character that is neither a control nor a space nor one of those given. -/
def graphicBut (chars : String) (char : Char) : Bool :=
  char.toNat < 0x80 && (0x21 ≤ char.toNat && char.toNat ≠ 0x7F) && !chars.toList.contains char

def alphanumericOr (chars : String) (char : Char) : Bool :=
  char.toNat < 0x80 && (char.isAlphanum || chars.toList.contains char)

/-- The characters of user information that are left as they are. -/
def userinfoChar : Char → Bool := graphicBut "\"#<>?`\x7b\x7d/:;=@[\\]^|"

/-- Those that `percent_encode_userinfo` leaves as they are. -/
def printedChar : Char → Bool := graphicBut "\"#<>?@[\\]^`\x7b|\x7d"

/-- Those of them that the parser for zones takes for user information. -/
def zoneUserChar (char : Char) : Bool := printedChar char && char ≠ '/'

def domainChar : Char → Bool := alphanumericOr "-._"

def queryChar : Char → Bool := graphicBut "\"#<>"

def fragmentChar : Char → Bool := graphicBut "\"<>`"

/-- The characters of a form-urlencoded text. -/
def formChar : Char → Bool := alphanumericOr "*-._+%&="

def ipv6Char (char : Char) : Bool := char.toNat < 0x80 && (char.isDigit || "abcdefABCDEF:.".toList.contains char)

/-- A zone ends at none of its characters. -/
def zoneChar (char : Char) : Bool := !"/?#@[]".toList.contains char

theorem graphicBut_iff (chars) (char : Char) : graphicBut chars char = true ↔
    0x20 < char.toNat ∧ char.toNat < 0x7F ∧ char.toNat ∉ chars.toList.map Char.toNat := by
  have listed : char.toNat ∈ chars.toList.map Char.toNat ↔ char ∈ chars.toList := by
    rw [List.mem_map]
    constructor
    · rintro ⟨other, member, same⟩
      rwa [← Char.toNat_inj.mp same]
    · intro member
      exact ⟨char, member, rfl⟩
  rw [listed]
  simp only [graphicBut, Bool.and_eq_true, decide_eq_true_eq, Bool.not_eq_true', List.contains_eq_mem,
    decide_eq_false_iff_not]
  constructor
  · rintro ⟨⟨ascii, visible, other⟩, absent⟩
    exact ⟨by omega, by omega, absent⟩
  · rintro ⟨visible, short, absent⟩
    exact ⟨⟨by omega, by omega, by omega⟩, absent⟩

theorem graphicBut_mono {chars fewer} (within : fewer.toList.all chars.toList.contains = true) {char}
    (graphic : graphicBut chars char = true) : graphicBut fewer char = true := by
  obtain ⟨visible, short, absent⟩ := (graphicBut_iff chars char).mp graphic
  refine (graphicBut_iff fewer char).mpr ⟨visible, short, fun member => absent ?_⟩
  obtain ⟨other, inside, same⟩ := List.mem_map.mp member
  exact List.mem_map.mpr ⟨other, List.contains_iff_mem.mp (List.all_eq_true.mp within other inside), same⟩

theorem zoneUserChar_of_userinfoChar {char} (plain : userinfoChar char = true) : zoneUserChar char = true := by
  have printed : printedChar char = true := graphicBut_mono (by decide) plain
  have slash : char ≠ '/' := by
    rintro rfl
    cases plain
  rw [zoneUserChar, printed, decide_eq_true slash]
  rfl

theorem not_contains_of_all {p : Char → Bool} {chars : Text} {char : Char} (none : chars.all (!p ·) = true)
    (holds : p char = true) : chars.contains char = false := by
  rw [← Bool.not_eq_true, List.contains_iff_mem]
  intro member
  have fails := List.all_eq_true.mp none char member
  rw [holds] at fails
  cases fails

theorem not_mem_of_all {p : Char → Bool} {text : Text} {char : Char} (all : ∀ c ∈ text, p c = true)
    (fails : p char = false) : char ∉ text := by
  intro member
  cases (all char member).symm.trans fails

/-! ### URLs from their parts -/

structure UrlParts where
  userinfo : Option Text
  host : Text
  port : Option Text
  slash : Bool
  query : Option Text
  fragment : Option Text

namespace UrlParts

/-- What follows the port. -/
def tail (parts : UrlParts) : Text :=
  (if parts.slash then ['/'] else []) ++ parts.query.elim [] ('?' :: ·) ++ parts.fragment.elim [] ('#' :: ·)

def afterHost (parts : UrlParts) : Text := parts.port.elim [] (':' :: ·) ++ parts.tail

def text (parts : UrlParts) : Text :=
  ANYTLS_SCHEME ++ parts.userinfo.elim [] (· ++ ['@']) ++ parts.host ++ parts.afterHost

/-- Every part has only characters of its own; `own` are those of the user information. -/
structure Shaped (parts : UrlParts) (own : Char → Bool) : Prop where
  userinfo : ∀ text, parts.userinfo = some text → ∀ char ∈ text, own char = true
  port : ∀ text, parts.port = some text → ∀ char ∈ text, char.isDigit = true
  query : ∀ text, parts.query = some text → ∀ char ∈ text, queryChar char = true
  fragment : ∀ text, parts.fragment = some text → ∀ char ∈ text, fragmentChar char = true

/-- Every part has only characters that stand for themselves there. -/
abbrev Plain (parts : UrlParts) : Prop := parts.Shaped userinfoChar

theorem Plain.shaped {parts : UrlParts} (plain : parts.Plain) : parts.Shaped zoneUserChar where
  userinfo text given char member := zoneUserChar_of_userinfoChar (plain.userinfo text given char member)
  port := plain.port
  query := plain.query
  fragment := plain.fragment

/-- The port, which is too large for `none`. -/
def portValue (parts : UrlParts) : Option (Option UInt16) :=
  match parts.port with
  | none | some [] => some none
  | some text =>
    let value := Nat.ofDigitChars 10 text 0
    if value < 65536 then some (some (UInt16.ofNat value)) else none

theorem portValue_filled {parts : UrlParts} {text} (given : parts.port = some text) (filled : text ≠ []) :
    parts.portValue = if Nat.ofDigitChars 10 text 0 < 65536 then some (some (UInt16.ofNat (Nat.ofDigitChars 10 text 0)))
      else none := by
  unfold portValue
  rw [given]
  cases text with
  | nil => exact absurd rfl filled
  | cons first rest => rfl

/-- The URL with these parts, its host displayed as given. -/
def url (parts : UrlParts) (host : Text) (port : Option UInt16) : Url :=
  ⟨"anytls".toList, parts.userinfo.getD [], none, some host, port, parts.query, parts.fragment⟩

end UrlParts

/-- What the crates are documented to do, as far as it is needed here. -/
structure UrlCrates.Documented (crates : UrlCrates) : Prop where
  /-- the `url` crate refuses a port that is too large -/
  port : ∀ (parts : UrlParts) (address ip : Text), parts.Plain → parts.portValue = none →
    parts.host = '[' :: address ++ [']'] → crates.ipv6 address = some ip →
    ∃ message, crates.parse parts.text = .error message
  /-- the host of a URL with a scheme unknown to the `url` crate is left as it is -/
  domain : ∀ (parts : UrlParts) (port : Option UInt16), parts.Plain → parts.portValue = some port →
    parts.host ≠ [] → (∀ char ∈ parts.host, domainChar char = true) →
    crates.parse parts.text = .ok (parts.url parts.host port)
  /-- an IPv6 address is displayed as one that is the same -/
  bracketed : ∀ (parts : UrlParts) (port : Option UInt16) (address ip : Text), parts.Plain →
    parts.portValue = some port → parts.host = '[' :: address ++ [']'] → crates.ipv6 address = some ip →
    ∃ shown, crates.ipv6 shown = some ip ∧
      crates.parse parts.text = .ok (parts.url ('[' :: shown ++ [']']) port)
  /-- user information is returned percent-encoded -/
  userinfo : ∀ raw url, crates.parse raw = .ok url →
    ∀ char ∈ url.username ++ url.password.getD [], userinfoChar char = true
  ipv6_chars : ∀ text ip, crates.ipv6 text = some ip → ':' ∈ text ∧ ∀ char ∈ text, ipv6Char char = true
  form : ∀ pairs, crates.formParse (crates.serialize pairs) = pairs
  form_chars : ∀ pairs, ∀ char ∈ crates.serialize pairs, formChar char = true
  form_nil : crates.serialize [] = []
  form_cons : ∀ pair pairs, crates.serialize (pair :: pairs) ≠ []
  uuid : ∀ id, crates.parseUuid (crates.uuidText id) = .ok id
  uuid_filled : ∀ id, crates.uuidText id ≠ []

/-! ### Texts -/

theorem afterPrefix_append (expected rest) : afterPrefix expected (expected ++ rest) = some rest := by
  induction expected with
  | nil => rfl
  | cons first expected ih => simp only [List.cons_append, afterPrefix, if_true, ih]

theorem takeWhile_append_stop {p} {front rest : Text} (goes : ∀ char ∈ front, p char = true)
    (stops : ∀ char ∈ rest.head?, p char = false) : (front ++ rest).takeWhile p = front := by
  rw [List.takeWhile_append_of_pos goes]
  cases rest with
  | nil => simp
  | cons first rest => simp [stops first rfl]

theorem dropWhile_append_stop {p} {front rest : Text} (goes : ∀ char ∈ front, p char = true)
    (stops : ∀ char ∈ rest.head?, p char = false) : (front ++ rest).dropWhile p = rest := by
  rw [List.dropWhile_append_of_pos goes]
  cases rest with
  | nil => rfl
  | cons first rest => simp [stops first rfl]

theorem findIdx?_append_stop {p} {front rest : Text} {char} (goes : ∀ char ∈ front, p char = false)
    (stops : p char = true) :
    (front ++ char :: rest).findIdx? p = some front.length := by
  induction front with
  | nil => simp [List.findIdx?_cons, stops]
  | cons first front ih =>
    have later := ih fun char member => goes char (List.mem_cons_of_mem _ member)
    rw [List.cons_append, List.findIdx?_cons, goes first List.mem_cons_self, later]
    rfl

theorem decide_eq_false_of_not_mem {text : Text} {char : Char} (absent : char ∉ text) :
    ∀ other ∈ text, decide (other = char) = false := by
  intro other member
  rw [decide_eq_false_iff_not]
  rintro rfl
  exact absent member

theorem decide_ne_of_not_mem {text : Text} {char : Char} (absent : char ∉ text) :
    ∀ other ∈ text, decide (other ≠ char) = true := by
  intro other member
  rw [decide_eq_true_eq]
  rintro rfl
  exact absent member

theorem trim_plain {text} (plain : ∀ char ∈ text, isWhitespace char = false) : trim text = text := by
  have front : text.dropWhile isWhitespace = text := by
    cases text with
    | nil => rfl
    | cons first rest => rw [List.dropWhile_cons_of_neg]; simp [plain first List.mem_cons_self]
  have back : text.reverse.dropWhile isWhitespace = text.reverse := by
    cases reversed : text.reverse with
    | nil => rfl
    | cons last rest =>
      have member : last ∈ text := by rw [← List.mem_reverse, reversed]; exact List.mem_cons_self
      rw [List.dropWhile_cons_of_neg]
      simp [plain last member]
  rw [trim, front, back, List.reverse_reverse]

theorem numeral_digits {limit value text} (decimal : ∀ char ∈ text, char.isDigit = true)
    (small : value < limit) : numeral limit value text =
      if Nat.ofDigitChars 10 text value < limit then .ok (Nat.ofDigitChars 10 text value)
      else .error "number too large to fit in target type" := by
  induction text generalizing value with
  | nil => simp [numeral, small]
  | cons char rest ih =>
    have digit := decimal char List.mem_cons_self
    rw [numeral, if_pos digit, Nat.ofDigitChars_cons, Nat.mul_comm 10]
    simp only
    by_cases fits : value * 10 + (char.toNat - '0'.toNat) < limit
    · rw [if_pos fits]
      exact ih (fun c member => decimal c (List.mem_cons_of_mem _ member)) fits
    · have large := le_ofDigitChars rest (value * 10 + (char.toNat - '0'.toNat))
      rw [if_neg fits, if_neg (by omega)]

/-- The port of a URL is read as the `url` crate reads it. -/
theorem parseU16_digits {text} (filled : text ≠ []) (decimal : ∀ char ∈ text, char.isDigit = true) :
    parseU16 text = if Nat.ofDigitChars 10 text 0 < 65536 then .ok (Nat.ofDigitChars 10 text 0)
      else .error "number too large to fit in target type" := by
  cases text with
  | nil => exact absurd rfl filled
  | cons char rest =>
    have unsigned : char ≠ '+' := by
      rintro rfl
      exact absurd (decimal '+' List.mem_cons_self) (by decide)
    rw [← numeral_digits decimal (by decide)]
    unfold parseU16
    split
    · rename_i same
      cases same
    · rename_i same
      cases same
      exact absurd rfl unsigned
    · rename_i same
      cases same
      exact absurd rfl unsigned
    · rfl

theorem not_delimits_of {p : Char → Bool} (slash : p '/' = false) (question : p '?' = false) (hash : p '#' = false)
    {char : Char} (holds : p char = true) : delimits char = false := by
  simp only [delimits, Bool.or_eq_false_iff, decide_eq_false_iff_not]
  refine ⟨⟨?_, ?_⟩, ?_⟩
  · rintro rfl
    cases slash.symm.trans holds
  · rintro rfl
    cases question.symm.trans holds
  · rintro rfl
    cases hash.symm.trans holds

/-! ### The parser for zones -/

theorem zoneQuery_append {front} (absent : '?' ∉ front) (rest) :
    zoneQuery (front ++ rest) = zoneQuery rest := by
  by_cases found : '?' ∈ rest
  · obtain ⟨before, after, rfl, first⟩ := List.eq_append_cons_of_mem found
    have both : '?' ∉ front ++ before := by
      rw [List.mem_append, not_or]
      exact ⟨absent, first⟩
    rw [← List.append_assoc, zoneQuery, zoneQuery, splitOnce_append both, splitOnce_append first]
  · have both : '?' ∉ front ++ rest := by
      rw [List.mem_append, not_or]
      exact ⟨absent, found⟩
    rw [zoneQuery, zoneQuery, splitOnce_none both, splitOnce_none found]

namespace UrlParts
variable {parts : UrlParts} {host : Text} {own : Char → Bool}

theorem tail_head (parts : UrlParts) : ∀ char ∈ parts.tail.head?, delimits char = true := by
  intro char first
  obtain ⟨userinfo, host, port, slash, query, fragment⟩ := parts
  cases slash with
  | true =>
    cases first
    rfl
  | false =>
    cases query with
    | some query =>
      cases first
      rfl
    | none =>
      cases fragment with
      | some fragment =>
        cases first
        rfl
      | none => cases first

theorem tail_stops (parts : UrlParts) : ∀ char ∈ parts.tail.head?, (!delimits char) = false := by
  intro char first
  rw [parts.tail_head char first]
  rfl

/-- The port is read as by the crate, except for an empty one. -/
theorem zonePort_afterHost (shaped : parts.Shaped own) (filled : parts.port ≠ some []) : zonePort parts.afterHost =
    match parts.portValue with
    | none => .error (invalidInput "Invalid port in AnyTLS URL: number too large to fit in target type")
    | some port => .ok (port.getD 443, parts.tail) := by
  unfold afterHost portValue
  cases given : parts.port with
  | none =>
    have first := parts.tail_head
    simp only [Option.elim_none, List.nil_append]
    unfold zonePort
    split
    · rename_i same
      rw [same] at first
      exact absurd (first ':' rfl) (by decide)
    · rfl
  | some text =>
    cases text with
    | nil => exact absurd given filled
    | cons first rest =>
      have decimal := shaped.port _ given
      have goes : ∀ char ∈ first :: rest, (!delimits char) = true := by
        intro char member
        rw [not_delimits_of (p := Char.isDigit) rfl rfl rfl (decimal char member)]
        rfl
      rw [Option.elim_some, List.cons_append]
      simp only [zonePort, takeWhile_append_stop goes parts.tail_stops, dropWhile_append_stop goes parts.tail_stops,
        parseU16_digits (List.cons_ne_nil first rest) decimal]
      by_cases small : Nat.ofDigitChars 10 (first :: rest) 0 < 65536
      · simp only [if_pos small]
        rfl
      · simp only [if_neg small]
        rfl

/-- Where there is no query, a `?` of the fragment starts one. -/
theorem zoneQuery_tail (shaped : parts.Shaped own) :
    zoneQuery parts.tail = parts.query.getD (zoneQuery (parts.fragment.getD [])) := by
  have slash : '?' ∉ (if parts.slash then ['/'] else [] : Text) := by
    cases parts.slash <;> decide
  cases given : parts.query with
  | some query =>
    have short : '#' ∉ query := not_mem_of_all (shaped.query query given) (by decide)
    have stops : ∀ char ∈ (parts.fragment.elim [] ('#' :: ·) : Text).head?, decide (char ≠ '#') = false := by
      intro char first
      cases fragment : parts.fragment with
      | none =>
        rw [fragment] at first
        cases first
      | some text =>
        rw [fragment] at first
        cases first
        rfl
    rw [tail, given, Option.elim_some, List.append_assoc, List.cons_append, zoneQuery, splitOnce_append slash]
    exact takeWhile_append_stop (decide_ne_of_not_mem short) stops
  | none =>
    rw [tail, given, Option.elim_none, List.append_nil, zoneQuery_append slash, Option.getD_none]
    cases parts.fragment with
    | none => rfl
    | some text =>
      have hash : zoneQuery (['#'] ++ text) = zoneQuery text := zoneQuery_append (by decide) text
      exact hash

theorem fragmentChar_not_whitespace {char} (fragment : fragmentChar char = true) : isWhitespace char = false := by
  simp only [fragmentChar, graphicBut, Bool.and_eq_true, decide_eq_true_eq] at fragment
  obtain ⟨⟨ascii, visible, -⟩, -⟩ := fragment
  simp only [isWhitespace, Bool.or_eq_false_iff, Bool.and_eq_false_iff, decide_eq_false_iff_not]
  omega

/-- The first `#` starts the fragment. -/
theorem fragment_first (shaped : parts.Shaped own) :
    '#' ∉ ((if parts.slash then ['/'] else []) ++ parts.query.elim [] ('?' :: ·) : Text) := by
  rw [List.mem_append, not_or]
  refine ⟨by cases parts.slash <;> decide, ?_⟩
  cases given : parts.query with
  | none => exact List.not_mem_nil
  | some query =>
    have short : '#' ∉ query := not_mem_of_all (shaped.query query given) (by decide)
    simpa using short

theorem zoneDisplayName_tail (shaped : parts.Shaped own) : zoneDisplayName parts.tail =
    (parts.fragment.filter fun text => !text.isEmpty).map percentDecodeStr := by
  have before := fragment_first shaped
  cases given : parts.fragment with
  | none =>
    rw [tail, given, Option.elim_none, List.append_nil, zoneDisplayName, splitOnce_none before]
    rfl
  | some text =>
    have visible : ∀ char ∈ text, isWhitespace char = false := fun char member =>
      fragmentChar_not_whitespace (shaped.fragment text given char member)
    rw [tail, given, Option.elim_some, zoneDisplayName, splitOnce_append before]
    simp only [trim_plain visible]
    cases text with
    | nil => rfl
    | cons first rest => rfl

/-- The URL has its host in brackets. -/
structure Bracketed (parts : UrlParts) (host : Text) : Prop where
  shaped : parts.Shaped zoneUserChar
  brackets : parts.host = '[' :: host ++ [']']
  chars : ∀ char ∈ host, zoneChar char = true

theorem text_afterScheme (parts : UrlParts) : afterPrefix ANYTLS_SCHEME parts.text =
    some (parts.userinfo.elim [] (· ++ ['@']) ++ (parts.host ++ parts.afterHost)) := by
  rw [text, List.append_assoc, List.append_assoc, afterPrefix_append]

theorem userinfo_split (shaped : parts.Shaped zoneUserChar)
    (clear : parts.userinfo.isSome = true ∨ '@' ∉ parts.host ++ parts.afterHost) :
    (splitOnce '@' (parts.userinfo.elim [] (· ++ ['@']) ++ (parts.host ++ parts.afterHost))).getD
      ([], parts.userinfo.elim [] (· ++ ['@']) ++ (parts.host ++ parts.afterHost)) =
      (parts.userinfo.getD [], parts.host ++ parts.afterHost) := by
  cases given : parts.userinfo with
  | none =>
    rw [given] at clear
    rw [Option.elim_none, List.nil_append, splitOnce_none (clear.resolve_left (by decide))]
    rfl
  | some text =>
    have absent : '@' ∉ text := not_mem_of_all (shaped.userinfo text given) (by decide)
    rw [Option.elim_some, List.append_assoc, List.singleton_append, splitOnce_append absent]
    rfl

/-- What the parser for zones makes of a URL with a bracketed host. -/
theorem Bracketed.zone_parse (crates) (bracketed : parts.Bracketed host)
    (clear : parts.userinfo.isSome = true ∨ '@' ∉ parts.tail) :
    parseAnytlsUrlIpv6Zone crates parts.text =
      match zonePort parts.afterHost with
      | .error error => .error error
      | .ok (port, rest) => buildClientRuntimeConfig crates (bracketedAddress crates (zoneHost host) port)
          (zonePassword (parts.userinfo.getD [])) (zoneQuery rest) (zoneDisplayName rest) := by
  have shaped := bracketed.shaped
  have unclosed : ']' ∉ host := not_mem_of_all bracketed.chars (by decide)
  have clear' : parts.userinfo.isSome = true ∨ '@' ∉ parts.host ++ parts.afterHost := by
    refine clear.imp_right fun absent => ?_
    have free : '@' ∉ host := not_mem_of_all bracketed.chars (by decide)
    have port : '@' ∉ (parts.port.elim [] (':' :: ·) : Text) := by
      cases given : parts.port with
      | none => exact List.not_mem_nil
      | some text =>
        have decimal : '@' ∉ text := not_mem_of_all (shaped.port text given) (by decide)
        simpa using decimal
    simp [bracketed.brackets, afterHost, free, port, absent]
  have opens : ('[' :: host ++ ']' :: parts.afterHost).findIdx? (· = '[') = some 0 := rfl
  have inner : ']' ∉ '[' :: host := by simp [unclosed]
  have closes : ('[' :: host ++ ']' :: parts.afterHost).findIdx? (· = ']') = some (host.length + 1) :=
    findIdx?_append_stop (decide_eq_false_of_not_mem inner) rfl
  have between : (('[' :: host ++ ']' :: parts.afterHost).take (host.length + 1)).drop (0 + 1) = host := by
    simp
  have after : ('[' :: host ++ ']' :: parts.afterHost).drop (host.length + 1 + 1) = parts.afterHost := by
    simp
  have whole : parts.host ++ parts.afterHost = '[' :: host ++ ']' :: parts.afterHost := by
    rw [bracketed.brackets, List.append_assoc, List.singleton_append]
  simp only [parseAnytlsUrlIpv6Zone, text_afterScheme, userinfo_split shaped clear']
  simp only [whole, opens, closes, between, after]
  refine (if_neg (by omega)).trans ?_
  cases zonePort parts.afterHost with
  | error error => rfl
  | ok read => rfl

theorem Bracketed.zone_parse_filled (crates) (bracketed : parts.Bracketed host)
    (clear : parts.userinfo.isSome = true ∨ '@' ∉ parts.tail) (filled : parts.port ≠ some []) :
    parseAnytlsUrlIpv6Zone crates parts.text =
      match parts.portValue with
      | none => .error (invalidInput "Invalid port in AnyTLS URL: number too large to fit in target type")
      | some port => buildClientRuntimeConfig crates (bracketedAddress crates (zoneHost host) (port.getD 443))
          (zonePassword (parts.userinfo.getD [])) (parts.query.getD (zoneQuery (parts.fragment.getD [])))
          ((parts.fragment.filter fun text => !text.isEmpty).map percentDecodeStr) := by
  rw [bracketed.zone_parse crates clear, zonePort_afterHost bracketed.shaped filled]
  cases parts.portValue with
  | none => rfl
  | some port => simp only [zoneQuery_tail bracketed.shaped, zoneDisplayName_tail bracketed.shaped]

def portPart (parts : UrlParts) : Text := parts.port.elim [] (':' :: ·)

theorem portPart_chars (shaped : parts.Shaped own) : ∀ char ∈ parts.portPart, char = ':' ∨ char.isDigit = true := by
  unfold portPart
  intro char member
  cases given : parts.port with
  | none =>
    rw [given] at member
    cases member
  | some text =>
    rw [given] at member
    rcases List.mem_cons.mp member with colon | digit
    · exact .inl colon
    · exact .inr (shaped.port text given char digit)

theorem mem_portPart (shaped : parts.Shaped own) : ∀ char ∈ parts.portPart, delimits char = false ∧ char ≠ '@' := by
  intro char member
  rcases portPart_chars shaped char member with rfl | digit
  · decide
  · refine ⟨not_delimits_of (p := Char.isDigit) rfl rfl rfl digit, ?_⟩
    rintro rfl
    cases digit

/-- The authority ends where the tail begins. -/
theorem authority_goes (shaped : parts.Shaped zoneUserChar) (free : ∀ char ∈ parts.host, delimits char = false) :
    ∀ char ∈ parts.userinfo.elim [] (· ++ ['@']) ++ (parts.host ++ parts.portPart), (!delimits char) = true := by
  intro char member
  rw [Bool.not_eq_true']
  rcases List.mem_append.mp member with user | rest
  · cases given : parts.userinfo with
    | none =>
      rw [given] at user
      cases user
    | some text =>
      rw [given] at user
      rcases List.mem_append.mp user with inside | at_
      · exact not_delimits_of (p := zoneUserChar) rfl rfl rfl (shaped.userinfo text given char inside)
      · cases List.mem_singleton.mp at_
        rfl
  · rcases List.mem_append.mp rest with host | digits
    · exact free char host
    · exact (mem_portPart shaped char digits).1

theorem authority_eq (shaped : parts.Shaped zoneUserChar) (free : ∀ char ∈ parts.host, delimits char = false) :
    (parts.userinfo.elim [] (· ++ ['@']) ++ (parts.host ++ parts.afterHost)).takeWhile (fun char => !delimits char) =
      parts.userinfo.elim [] (· ++ ['@']) ++ (parts.host ++ parts.portPart) := by
  rw [afterHost, ← List.append_assoc parts.host, ← List.append_assoc]
  exact takeWhile_append_stop (authority_goes shaped free) parts.tail_stops

theorem afterAuthority_eq (shaped : parts.Shaped zoneUserChar) (free : ∀ char ∈ parts.host, delimits char = false) :
    (parts.userinfo.elim [] (· ++ ['@']) ++ (parts.host ++ parts.afterHost)).dropWhile (fun char => !delimits char) =
      parts.tail := by
  rw [afterHost, ← List.append_assoc parts.host, ← List.append_assoc]
  exact dropWhile_append_stop (authority_goes shaped free) parts.tail_stops

/-- What stands after the last `@` of the authority. -/
theorem after_last_at (userinfo : Option Text) {rest : Text} (unnamed : '@' ∉ rest) :
    ((userinfo.elim [] (· ++ ['@']) ++ rest).reverse.takeWhile (· ≠ '@')).reverse = rest := by
  have goes := decide_ne_of_not_mem (show '@' ∉ rest.reverse from fun member => unnamed (List.mem_reverse.mp member))
  cases userinfo with
  | none =>
    have all : rest.reverse.takeWhile (· ≠ '@') = rest.reverse := List.takeWhile_eq_self_iff.mpr goes
    rw [Option.elim_none, List.nil_append, all, List.reverse_reverse]
  | some text =>
    have last : ∀ char ∈ ('@' :: text.reverse).head?, decide (char ≠ '@') = false := by
      rintro char ⟨⟩
      rfl
    have reversed : (text ++ ['@'] ++ rest).reverse = rest.reverse ++ '@' :: text.reverse := by simp
    rw [Option.elim_some, reversed, takeWhile_append_stop goes last, List.reverse_reverse]

/-- The part of the authority in which `is_anytls_ipv6_zone_url` looks for the host. -/
theorem authority_host (shaped : parts.Shaped zoneUserChar) (free : ∀ char ∈ parts.host, delimits char = false)
    (unnamed : '@' ∉ parts.host) :
    (((parts.userinfo.elim [] (· ++ ['@']) ++ (parts.host ++ parts.afterHost)).takeWhile
      fun char => !delimits char).reverse.takeWhile (· ≠ '@')).reverse = parts.host ++ parts.portPart := by
  have absent : '@' ∉ parts.host ++ parts.portPart := by
    rw [List.mem_append, not_or]
    exact ⟨unnamed, fun member => (mem_portPart shaped '@' member).2 rfl⟩
  rw [authority_eq shaped free]
  exact after_last_at parts.userinfo absent

/-- The parser for zones reads the URLs whose bracketed host has a `%`. -/
theorem Bracketed.isZone (bracketed : parts.Bracketed host) : isAnytlsIpv6ZoneUrl parts.text = host.contains '%' := by
  have unclosed : ']' ∉ host := not_mem_of_all bracketed.chars (by decide)
  have free : ∀ char ∈ parts.host, delimits char = false := by
    intro char member
    rw [bracketed.brackets, List.mem_append, List.mem_cons, List.mem_singleton] at member
    rcases member with (rfl | inside) | rfl
    · rfl
    · exact not_delimits_of (p := zoneChar) rfl rfl rfl (bracketed.chars char inside)
    · rfl
  have unnamed : '@' ∉ parts.host := by
    have absent : '@' ∉ host := not_mem_of_all bracketed.chars (by decide)
    simp [bracketed.brackets, absent]
  have goes := decide_ne_of_not_mem (show ']' ∉ '[' :: host by simp [unclosed])
  have inner : ('[' :: host ++ ']' :: parts.portPart).takeWhile (· ≠ ']') = '[' :: host :=
    takeWhile_append_stop goes (by rintro _ ⟨⟩; rfl)
  have whole : parts.host ++ parts.portPart = '[' :: host ++ ']' :: parts.portPart := by
    rw [bracketed.brackets, List.append_assoc, List.singleton_append]
  have opens : ('[' :: host ++ ']' :: parts.portPart).dropWhile (· ≠ '[') = '[' :: host ++ ']' :: parts.portPart := rfl
  simp only [isAnytlsIpv6ZoneUrl, text_afterScheme, Option.getD_some, authority_host bracketed.shaped free unnamed,
    whole, opens]
  rw [List.cons_append] at inner ⊢
  simp only [inner]
  simp

theorem Shaped.not_zone (shaped : parts.Shaped zoneUserChar) (domain : ∀ char ∈ parts.host, domainChar char = true) :
    isAnytlsIpv6ZoneUrl parts.text = false := by
  have free : ∀ char ∈ parts.host, delimits char = false := fun char member =>
    not_delimits_of (p := domainChar) rfl rfl rfl (domain char member)
  have unnamed : '@' ∉ parts.host := not_mem_of_all domain (by decide)
  have unopened : (parts.host ++ parts.portPart).dropWhile (· ≠ '[') = [] := by
    refine List.dropWhile_eq_nil_iff.mpr fun char member => ?_
    rw [decide_eq_true_eq]
    rintro rfl
    rcases List.mem_append.mp member with host | port
    · cases domain '[' host
    · rcases portPart_chars shaped '[' port with colon | digit
      · cases colon
      · cases digit
  simp only [isAnytlsIpv6ZoneUrl, text_afterScheme, Option.getD_some, authority_host shaped free unnamed, unopened]

/-! ### The parser of the crate -/

section
variable {crates : UrlCrates} (documented : crates.Documented)

theorem unbracketed_brackets (host) : unbracketed ('[' :: host ++ [']']) = host := by
  simp [unbracketed]

theorem socketHost_address {address ip} (absent : '%' ∉ address) (shown : crates.ipv6 address = some ip) :
    socketHost crates address = some ip := by
  rw [socketHost, splitOnce_none absent]
  exact shown

/-- What is made of the URL that the crate returns. -/
theorem parseAnytlsUrl_ok {raw host url} (outside : isAnytlsIpv6ZoneUrl raw = false)
    (parsed : crates.parse raw = .ok url) (scheme : url.scheme = "anytls".toList)
    (hosted : url.hostStr = some host) (nameless : url.password = none) :
    parseAnytlsUrl crates raw = buildClientRuntimeConfig crates
      (if (unbracketed host).contains ':' then bracketedAddress crates (unbracketed host) (url.port.getD 443)
        else ⟨unbracketed host, url.port.getD 443, false⟩)
      url.username (url.query.getD []) url.fragment := by
  have password : (if url.username = [] then url.password.getD [] else url.username) = url.username := by
    split_ifs with unnamed
    · rw [nameless, unnamed]
      rfl
    · rfl
  rw [parseAnytlsUrl, outside, if_neg Bool.false_ne_true, parsed]
  dsimp only
  rw [if_neg (not_not.mpr scheme), hosted, password]

include documented

theorem ipv6_plain {address ip : Text} (valid : crates.ipv6 address = some ip) :
    address.contains ':' = true ∧ '%' ∉ address ∧ ∀ char ∈ address, zoneChar char = true := by
  obtain ⟨colon, chars⟩ := documented.ipv6_chars address ip valid
  refine ⟨List.contains_iff_mem.mpr colon, not_mem_of_all chars (by decide), ?_⟩
  intro char member
  rw [zoneChar, Bool.not_eq_true']
  exact not_contains_of_all (p := ipv6Char) (by decide) (chars char member)

/-- What a URL with an IPv6 address without a zone is parsed as. -/
theorem Plain.address_parse (plain : parts.Plain) {address ip}
    (brackets : parts.host = '[' :: address ++ [']']) (valid : crates.ipv6 address = some ip) :
    (∃ port, parts.portValue = some port ∧ parseAnytlsUrl crates parts.text =
      buildClientRuntimeConfig crates ⟨ip, port.getD 443, true⟩ (parts.userinfo.getD []) (parts.query.getD [])
        parts.fragment) ∨
    parts.portValue = none ∧ ∃ error, parseAnytlsUrl crates parts.text = .error error := by
  obtain ⟨-, unzoned, chars⟩ := ipv6_plain documented valid
  have outside : isAnytlsIpv6ZoneUrl parts.text = false := by
    rw [Bracketed.isZone ⟨plain.shaped, brackets, chars⟩]
    simpa using unzoned
  cases value : parts.portValue with
  | none =>
    obtain ⟨message, refused⟩ := documented.port parts address ip plain value brackets valid
    refine .inr ⟨rfl, .io (.otherError message), ?_⟩
    rw [parseAnytlsUrl, outside, if_neg Bool.false_ne_true, refused]
  | some port =>
    obtain ⟨shown, same, parsed⟩ := documented.bracketed parts port address ip plain value brackets valid
    obtain ⟨colon, unscoped, -⟩ := ipv6_plain documented same
    refine .inl ⟨port, rfl, ?_⟩
    rw [parseAnytlsUrl_ok outside parsed rfl rfl rfl, unbracketed_brackets, if_pos colon, bracketedAddress,
      socketHost_address unscoped same]
    rfl

/-- What a URL with a domain name or an IPv4 address is parsed as. -/
theorem Plain.domain_parse (plain : parts.Plain) (filled : parts.host ≠ [])
    (chars : ∀ char ∈ parts.host, domainChar char = true) {port : Option UInt16} (value : parts.portValue = some port) :
    parseAnytlsUrl crates parts.text = buildClientRuntimeConfig crates ⟨parts.host, port.getD 443, false⟩
      (parts.userinfo.getD []) (parts.query.getD []) parts.fragment := by
  have parsed := documented.domain parts port plain value filled chars
  have unopened : '[' ∉ parts.host := not_mem_of_all chars (by decide)
  have bare : unbracketed parts.host = parts.host := by
    unfold unbracketed
    split
    · rename_i rest same
      rw [same] at unopened
      exact absurd List.mem_cons_self unopened
    · rfl
  have single : parts.host.contains ':' = false := by
    have absent : ':' ∉ parts.host := not_mem_of_all chars (by decide)
    simpa using absent
  rw [parseAnytlsUrl_ok (plain.shaped.not_zone chars) parsed rfl rfl rfl, bare, single, if_neg Bool.false_ne_true]
  rfl

end

end UrlParts

end AnyTls
