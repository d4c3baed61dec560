import AnyTls.Library.BigEndian
import AnyTls.Util.UrlEncoding

/-! Crates that do what is documented, on the URLs that are read here. IPv6 addresses are
those written with eight groups, and identifiers are printed without their hyphens. -/
namespace AnyTls
namespace UrlReference

/-! ### `Url::parse` -/

/-- The host and what follows it in the authority. -/
def splitHost (authority : Text) : Text × Text :=
  match authority with
  | '[' :: _ => (authority.takeWhile (· ≠ ']') ++ [']'], (authority.dropWhile (· ≠ ']')).drop 1)
  | _ => (authority.takeWhile (· ≠ ':'), authority.dropWhile (· ≠ ':'))

def parsePort : Text → Except String (Option UInt16)
  | [] | [':'] => .ok none
  | ':' :: text =>
    if text.all Char.isDigit then
      if Nat.ofDigitChars 10 text 0 < 65536 then .ok (some (UInt16.ofNat (Nat.ofDigitChars 10 text 0)))
      else .error "invalid port number"
    else .error "invalid port number"
  | _ => .error "invalid port number"

def ipv6 (text : Text) : Option Text :=
  let groups := text.splitOn ':'
  if text.all ipv6Char && text.contains ':' && groups.length = 8 && groups.all fun group =>
    1 ≤ group.length && group.length ≤ 4 && (group.length = 1 || group.head? ≠ some '0') then some text
  else none

def validHost (host : Text) : Bool :=
  match host with
  | [] => false
  | '[' :: rest => (ipv6 rest.dropLast).isSome
  | _ => true

/-- What is escaped in user information. -/
def userinfoSet : UInt8 → Bool := asciiSet " \"#<>?`\x7b\x7d/:;=@[\\]^|"

def encodedUserinfo (userinfo : Text) : Text × Option Text :=
  match splitOnce ':' userinfo with
  | some (name, password) => (utf8PercentEncode userinfoSet name, some (utf8PercentEncode userinfoSet password))
  | none => (utf8PercentEncode userinfoSet userinfo, none)

def parse (raw : Text) : Except String Url :=
  match afterPrefix ANYTLS_SCHEME raw with
  | none => .error "relative URL without a base"
  | some rest =>
    let authority := rest.takeWhile fun char => !delimits char
    let tail := rest.dropWhile fun char => !delimits char
    let hostPort := (authority.reverse.takeWhile (· ≠ '@')).reverse
    let userinfo := authority.take (authority.length - hostPort.length - 1)
    let (host, port) := splitHost hostPort
    if validHost host then
      match parsePort port with
      | .error message => .error message
      | .ok port =>
        let (username, password) := encodedUserinfo userinfo
        let beforeFragment := tail.takeWhile (· ≠ '#')
        .ok ⟨"anytls".toList, username, password, some host, port,
          (splitOnce '?' beforeFragment).map Prod.snd, (splitOnce '#' tail).map Prod.snd⟩
    else .error "invalid host"

section
variable {parts : UrlParts}

theorem encodedUserinfo_chars (userinfo) :
    ∀ char ∈ (encodedUserinfo userinfo).1 ++ (encodedUserinfo userinfo).2.getD [], userinfoChar char = true := by
  have spares : SparesEscapes userinfoSet := ⟨by decide, forall_byte (by decide +kernel)⟩
  have encoded (value : Text) : ∀ char ∈ utf8PercentEncode userinfoSet value, userinfoChar char = true :=
    fun _ member => graphic_of_spared (by decide) (by decide) (spares.spared_of_mem member)
  intro char member
  unfold encodedUserinfo at member
  split at member
  · exact (List.mem_append.mp member).elim (encoded _ char) (encoded _ char)
  · exact (List.mem_append.mp member).elim (encoded _ char) (nomatch ·)

/-- The user information of a URL that is accepted is encoded. -/
theorem parse_userinfo {raw url} (parsed : parse raw = .ok url) :
    ∀ char ∈ url.username ++ url.password.getD [], userinfoChar char = true := by
  unfold parse at parsed
  split at parsed
  · cases parsed
  · dsimp only at parsed
    split_ifs at parsed
    split at parsed
    · cases parsed
    · cases parsed
      exact encodedUserinfo_chars _

theorem parsePort_portPart (plain : parts.Plain) : parsePort parts.portPart =
    match parts.portValue with
    | none => .error "invalid port number"
    | some port => .ok port := by
  unfold UrlParts.portPart UrlParts.portValue
  cases given : parts.port with
  | none => rfl
  | some text =>
    cases text with
    | nil => rfl
    | cons first rest =>
      have all : (first :: rest).all Char.isDigit = true := List.all_eq_true.mpr (plain.port _ given)
      simp only [Option.elim_some, parsePort, all, if_true]
      by_cases small : Nat.ofDigitChars 10 (first :: rest) 0 < 65536
      · simp only [if_pos small]
      · simp only [if_neg small]

theorem tail_query (plain : parts.Plain) :
    (splitOnce '?' (parts.tail.takeWhile (· ≠ '#'))).map Prod.snd = parts.query := by
  have before := decide_ne_of_not_mem (UrlParts.fragment_first plain)
  have stops : ∀ char ∈ (parts.fragment.elim [] ('#' :: ·) : Text).head?, decide (char ≠ '#') = false := by
    intro char first
    cases given : parts.fragment with
    | none =>
      rw [given] at first
      cases first
    | some text =>
      rw [given] at first
      cases first
      rfl
  have slash : '?' ∉ (if parts.slash then ['/'] else [] : Text) := by cases parts.slash <;> decide
  rw [UrlParts.tail, takeWhile_append_stop before stops]
  cases parts.query with
  | none => rw [Option.elim_none, List.append_nil, splitOnce_none slash]; rfl
  | some query => rw [Option.elim_some, splitOnce_append slash]; rfl

theorem tail_fragment (plain : parts.Plain) : (splitOnce '#' parts.tail).map Prod.snd = parts.fragment := by
  have before := UrlParts.fragment_first plain
  rw [UrlParts.tail]
  cases parts.fragment with
  | none => rw [Option.elim_none, List.append_nil, splitOnce_none before]; rfl
  | some text => rw [Option.elim_some, splitOnce_append before]; rfl

/-- A URL with a valid host is taken apart again. -/
theorem parse_text (plain : parts.Plain) (free : ∀ char ∈ parts.host, delimits char = false)
    (unnamed : '@' ∉ parts.host) (split : splitHost (parts.host ++ parts.portPart) = (parts.host, parts.portPart))
    (valid : validHost parts.host = true) :
    parse parts.text =
      match parts.portValue with
      | none => .error "invalid port number"
      | some port => .ok (parts.url parts.host port) := by
  have userinfo : ∀ rest : Text, (parts.userinfo.elim [] (· ++ ['@']) ++ rest).take
      ((parts.userinfo.elim [] (· ++ ['@']) ++ rest).length - rest.length - 1) = parts.userinfo.getD [] := by
    intro rest
    cases parts.userinfo with
    | none => simp
    | some text =>
      have length : (text ++ ['@'] ++ rest).length - rest.length - 1 = text.length := by
        simp only [List.length_append, List.length_singleton]
        omega
      rw [Option.elim_some, length, List.append_assoc, List.take_left]
      rfl
  have own : ∀ char ∈ parts.userinfo.getD [], userinfoChar char = true := by
    cases given : parts.userinfo with
    | none => exact List.forall_mem_nil _
    | some text => exact plain.userinfo text given
  have nameless : splitOnce ':' (parts.userinfo.getD []) = none := splitOnce_none (not_mem_of_all own (by decide))
  have unescaped : utf8PercentEncode userinfoSet (parts.userinfo.getD []) = parts.userinfo.getD [] :=
    utf8PercentEncode_eq_self fun char member => spared_of_graphic (by decide) (own char member)
  have hostPort := UrlParts.authority_host plain.shaped free unnamed
  rw [UrlParts.authority_eq plain.shaped free] at hostPort
  simp only [parse, UrlParts.text_afterScheme, UrlParts.authority_eq plain.shaped free, hostPort,
    UrlParts.afterAuthority_eq plain.shaped free, split, valid, if_true, parsePort_portPart plain, userinfo,
    encodedUserinfo, nameless, unescaped, tail_query plain, tail_fragment plain]
  cases parts.portValue with
  | none => rfl
  | some port => rfl

theorem splitHost_domain (chars : ∀ char ∈ parts.host, domainChar char = true) (filled : parts.host ≠ []) :
    splitHost (parts.host ++ parts.portPart) = (parts.host, parts.portPart) := by
  have goes := decide_ne_of_not_mem (not_mem_of_all chars (show domainChar ':' = false by decide))
  have stops : ∀ char ∈ parts.portPart.head?, decide (char ≠ ':') = false := by
    intro char first
    unfold UrlParts.portPart at first
    cases given : parts.port with
    | none =>
      rw [given] at first
      cases first
    | some text =>
      rw [given] at first
      cases first
      rfl
  unfold splitHost
  split
  · rename_i rest same
    cases host : parts.host with
    | nil => exact absurd host filled
    | cons first others =>
      rw [host, List.cons_append, List.cons.injEq] at same
      have opened := chars first (by rw [host]; exact List.mem_cons_self)
      rw [same.1] at opened
      cases opened
  · rw [takeWhile_append_stop goes stops, dropWhile_append_stop goes stops]

theorem splitHost_brackets {address} (unclosed : ']' ∉ address) (port) :
    splitHost ('[' :: address ++ [']'] ++ port) = ('[' :: address ++ [']'], port) := by
  have goes := decide_ne_of_not_mem (show ']' ∉ '[' :: address by simp [unclosed])
  have stops : ∀ char ∈ (']' :: port).head?, decide (char ≠ ']') = false := by
    rintro char ⟨⟩
    rfl
  have whole : '[' :: address ++ [']'] ++ port = '[' :: address ++ ']' :: port := by simp
  have front := takeWhile_append_stop goes stops
  have back := dropWhile_append_stop goes stops
  rw [whole]
  simp only [splitHost, List.cons_append] at front back ⊢
  rw [front, back]
  rfl

end

/-! ### `form_urlencoded` -/

/-- Letters, digits, `*`, `-`, `.`, `_` and the space are not escaped. -/
def formSpared (byte : UInt8) : Bool :=
  byte.toNat < 0x80 && ((Char.ofNat byte.toNat).isAlphanum || "*-._ ".toList.contains (Char.ofNat byte.toNat))

def spaceToPlus (byte : UInt8) : UInt8 := if byte = 32 then 43 else byte

def plusToSpace (byte : UInt8) : UInt8 := if byte = 43 then 32 else byte

def formEncode (text : Text) : Text :=
  asciiText ((PercentEncoding.encode (fun byte => !formSpared byte) (utf8 text)).map spaceToPlus)

def formDecode (text : Text) : Text := fromUtf8Lossy (PercentEncoding.decode ((utf8 text).map plusToSpace))

def pairText (pair : Text × Text) : Text := formEncode pair.1 ++ '=' :: formEncode pair.2

def serialize (pairs : List (Text × Text)) : Text := ['&'].intercalate (pairs.map pairText)

def parsePair (text : Text) : Text × Text :=
  match splitOnce '=' text with
  | some (name, value) => (formDecode name, formDecode value)
  | none => (formDecode text, [])

def formParse (text : Text) : List (Text × Text) := ((text.splitOn '&').filter fun piece => !piece.isEmpty).map parsePair

/-- What the encoding is made of before the spaces are replaced. -/
theorem encode_bytes {text byte}
    (member : byte ∈ PercentEncoding.encode (fun byte => !formSpared byte) (utf8 text)) :
    formSpared byte = true ∨ byte = PercentEncoding.percent := by
  have digits : ∀ byte, (PercentEncoding.hexValue byte).isSome = true → formSpared byte = true :=
    forall_byte (by decide +kernel)
  rcases PercentEncoding.mem_encode member with ⟨-, spared⟩ | percent | digit
  · exact .inl (by simpa using spared)
  · exact .inr percent
  · exact .inl (digits byte digit)

theorem spaceToPlus_spared : ∀ byte, formSpared byte = true ∨ byte = PercentEncoding.percent →
    (spaceToPlus byte).toNat < 0x80 ∧ plusToSpace (spaceToPlus byte) = byte ∧
    formChar (Char.ofNat (spaceToPlus byte).toNat) = true ∧ Char.ofNat (spaceToPlus byte).toNat ≠ '&' ∧
    Char.ofNat (spaceToPlus byte).toNat ≠ '=' :=
  forall_byte (by decide +kernel)

theorem formEncode_chars (text) : ∀ char ∈ formEncode text, formChar char = true ∧ char ≠ '&' ∧ char ≠ '=' := by
  intro char member
  obtain ⟨byte, mapped, rfl⟩ := List.mem_map.mp member
  obtain ⟨original, inside, rfl⟩ := List.mem_map.mp mapped
  exact (spaceToPlus_spared original (encode_bytes inside)).2.2

theorem formDecode_encode (text) : formDecode (formEncode text) = text := by
  have ascii : ∀ byte ∈ (PercentEncoding.encode (fun byte => !formSpared byte) (utf8 text)).map spaceToPlus,
      byte.toNat < 0x80 := by
    intro byte member
    obtain ⟨original, inside, rfl⟩ := List.mem_map.mp member
    exact (spaceToPlus_spared original (encode_bytes inside)).1
  have spaces : ((PercentEncoding.encode (fun byte => !formSpared byte) (utf8 text)).map spaceToPlus).map plusToSpace =
      PercentEncoding.encode (fun byte => !formSpared byte) (utf8 text) := by
    rw [List.map_map]
    refine (List.map_congr_left fun byte member => ?_).trans (List.map_id _)
    exact (spaceToPlus_spared byte (encode_bytes member)).2.1
  rw [formDecode, formEncode, utf8_asciiText ascii, spaces, PercentEncoding.decode_encode_of_percent (by decide),
    fromUtf8Lossy_utf8]

theorem parsePair_text (pair : Text × Text) : parsePair (pairText pair) = pair := by
  have absent : '=' ∉ formEncode pair.1 := fun member => (formEncode_chars pair.1 '=' member).2.2 rfl
  rw [parsePair, pairText, splitOnce_append absent]
  simp only [formDecode_encode]

theorem pairText_separate (pair : Text × Text) : '&' ∉ pairText pair ∧ pairText pair ≠ [] := by
  refine ⟨?_, by simp [pairText]⟩
  rw [pairText, List.mem_append, List.mem_cons, not_or, not_or]
  exact ⟨fun member => (formEncode_chars _ _ member).2.1 rfl, by decide,
    fun member => (formEncode_chars _ _ member).2.1 rfl⟩

theorem formParse_serialize (pairs : List (Text × Text)) : formParse (serialize pairs) = pairs := by
  cases pairs with
  | nil => rfl
  | cons pair pairs =>
    have separate : ∀ text ∈ (pair :: pairs).map pairText, '&' ∉ text := by
      intro text member
      obtain ⟨pair, -, rfl⟩ := List.mem_map.mp member
      exact (pairText_separate pair).1
    have filled : ((pair :: pairs).map pairText).filter (fun piece => !piece.isEmpty) = (pair :: pairs).map pairText := by
      refine List.filter_eq_self.mpr fun text member => ?_
      obtain ⟨pair, -, rfl⟩ := List.mem_map.mp member
      simpa using (pairText_separate pair).2
    rw [formParse, serialize, List.splitOn_intercalate '&' separate (by simp), filled, List.map_map]
    refine (List.map_congr_left fun pair _ => ?_).trans (List.map_id _)
    rw [Function.comp_apply, parsePair_text, id]

theorem serialize_cons (pair : Text × Text) (pairs : List (Text × Text)) :
    serialize (pair :: pairs) = pairText pair ++ if pairs = [] then [] else '&' :: serialize pairs := by
  cases pairs with
  | nil => simp [serialize]
  | cons next pairs => simp [serialize, List.intercalate_cons_cons]

theorem serialize_chars (pairs : List (Text × Text)) : ∀ char ∈ serialize pairs, formChar char = true := by
  induction pairs with
  | nil => rintro char ⟨⟩
  | cons pair pairs ih =>
    intro char member
    rw [serialize_cons, List.mem_append] at member
    rcases member with piece | rest
    · rw [pairText, List.mem_append, List.mem_cons] at piece
      rcases piece with name | rfl | value
      · exact (formEncode_chars _ char name).1
      · decide
      · exact (formEncode_chars _ char value).1
    · split_ifs at rest
      · cases rest
      · rcases List.mem_cons.mp rest with rfl | later
        · decide
        · exact ih char later

/-! ### `Uuid` -/

def hexBytes (bytes : Bytes) : Bytes :=
  bytes.flatMap fun byte => [PercentEncoding.hexDigit (byte.toNat / 16), PercentEncoding.hexDigit (byte.toNat % 16)]

def unhex : Bytes → Option Bytes
  | [] => some []
  | [_] => none
  | high :: low :: rest =>
    match PercentEncoding.hexValue high, PercentEncoding.hexValue low, unhex rest with
    | some high, some low, some bytes => some (UInt8.ofNat (16 * high + low) :: bytes)
    | _, _, _ => none

def uuidText (id : BitVec 128) : Text := asciiText (hexBytes (BigEndian.bytes 16 id.toNat))

def parseUuid (text : Text) : Except String (BitVec 128) :=
  match unhex (utf8 text) with
  | some bytes =>
    if bytes.length = 16 then .ok (BitVec.ofNat 128 (BigEndian.value bytes)) else .error "invalid length"
  | none => .error "invalid character"

theorem unhex_hexBytes (bytes) : unhex (hexBytes bytes) = some bytes := by
  induction bytes with
  | nil => rfl
  | cons byte rest ih =>
    have small := byte.toNat_lt
    have whole : 16 * (byte.toNat / 16) + byte.toNat % 16 = byte.toNat := Nat.div_add_mod ..
    rw [hexBytes, List.flatMap_cons, ← hexBytes]
    simp only [List.cons_append, List.nil_append, unhex, ih,
      PercentEncoding.hexValue_hexDigit (show byte.toNat / 16 < 16 by omega),
      PercentEncoding.hexValue_hexDigit (show byte.toNat % 16 < 16 by omega), whole, UInt8.ofNat_toNat]

theorem parseUuid_text (id : BitVec 128) : parseUuid (uuidText id) = .ok id := by
  have ascii : ∀ byte ∈ hexBytes (BigEndian.bytes 16 id.toNat), byte.toNat < 0x80 := by
    intro byte member
    obtain ⟨original, -, digits⟩ := List.mem_flatMap.mp member
    have small := original.toNat_lt
    simp only [List.mem_cons, List.not_mem_nil, or_false] at digits
    rcases digits with rfl | rfl
    · rw [PercentEncoding.hexDigit_toNat (by omega)]
      split_ifs <;> omega
    · rw [PercentEncoding.hexDigit_toNat (by omega)]
      split_ifs <;> omega
  have value : BigEndian.value (BigEndian.bytes 16 id.toNat) = id.toNat := by
    rw [BigEndian.value_bytes, Nat.mod_eq_of_lt]
    exact id.isLt
  rw [parseUuid, uuidText, utf8_asciiText ascii, unhex_hexBytes]
  simp only [BigEndian.bytes_length, if_true, value, BitVec.ofNat_toNat, BitVec.setWidth_eq]

/-! ### All of them -/

def crates : UrlCrates := ⟨parse, serialize, formParse, ipv6, uuidText, parseUuid⟩

theorem ipv6_eq {text ip} (valid : ipv6 text = some ip) :
    ip = text ∧ ':' ∈ text ∧ ∀ char ∈ text, ipv6Char char = true := by
  simp only [ipv6] at valid
  split_ifs at valid with checked
  simp only [Bool.and_eq_true, List.all_eq_true, List.contains_iff_mem] at checked
  cases valid
  exact ⟨rfl, checked.1.1.2, checked.1.1.1⟩

theorem bracketed_host {address ip} (valid : ipv6 address = some ip) :
    (∀ char ∈ '[' :: address ++ [']'], delimits char = false) ∧ '@' ∉ '[' :: address ++ [']'] ∧
    validHost ('[' :: address ++ [']']) = true ∧ ']' ∉ address := by
  obtain ⟨-, -, chars⟩ := ipv6_eq valid
  have free : '@' ∉ address := not_mem_of_all chars (by decide)
  refine ⟨?_, by simp [free], ?_, not_mem_of_all chars (by decide)⟩
  · intro char member
    simp only [List.mem_append, List.mem_cons, List.not_mem_nil, or_false] at member
    rcases member with (rfl | inside) | rfl
    · rfl
    · exact not_delimits_of (p := ipv6Char) rfl rfl rfl (chars char inside)
    · rfl
  · simp [validHost, valid]

theorem domain_host {host} (filled : host ≠ []) (chars : ∀ char ∈ host, domainChar char = true) :
    (∀ char ∈ host, delimits char = false) ∧ '@' ∉ host ∧ validHost host = true := by
  refine ⟨fun char member => not_delimits_of (p := domainChar) rfl rfl rfl (chars char member),
    not_mem_of_all chars (by decide), ?_⟩
  unfold validHost
  split
  · exact absurd rfl filled
  · cases chars '[' List.mem_cons_self
  · rfl

theorem parse_brackets {parts : UrlParts} {address ip} (plain : parts.Plain)
    (brackets : parts.host = '[' :: address ++ [']']) (valid : ipv6 address = some ip) :
    parse parts.text =
      match parts.portValue with
      | none => .error "invalid port number"
      | some port => .ok (parts.url parts.host port) := by
  obtain ⟨free, unnamed, accepted, unclosed⟩ := bracketed_host valid
  rw [← brackets] at free unnamed accepted
  have split : splitHost (parts.host ++ parts.portPart) = (parts.host, parts.portPart) := by
    rw [brackets]
    exact splitHost_brackets unclosed parts.portPart
  exact parse_text plain free unnamed split accepted

theorem serialize_filled (pair : Text × Text) (pairs : List (Text × Text)) : serialize (pair :: pairs) ≠ [] := by
  rw [serialize_cons]
  exact List.append_ne_nil_of_left_ne_nil (pairText_separate pair).2 _

theorem uuidText_filled (id : BitVec 128) : uuidText id ≠ [] := by
  intro empty
  have back := parseUuid_text id
  have short : parseUuid [] = .error "invalid length" := rfl
  rw [empty, short] at back
  cases back

theorem documented : crates.Documented where
  port := by
    intro parts address ip plain value brackets valid
    have parsed := parse_brackets plain brackets valid
    rw [value] at parsed
    exact ⟨_, parsed⟩
  domain := by
    intro parts port plain value filled chars
    obtain ⟨free, unnamed, valid⟩ := domain_host filled chars
    have parsed := parse_text plain free unnamed (splitHost_domain chars filled) valid
    rw [value] at parsed
    exact parsed
  bracketed := by
    intro parts port address ip plain value brackets valid
    have parsed := parse_brackets plain brackets valid
    obtain ⟨rfl, -, -⟩ := ipv6_eq valid
    rw [value, brackets] at parsed
    exact ⟨ip, valid, parsed⟩
  userinfo := fun raw url => parse_userinfo
  ipv6_chars := fun text ip valid => (ipv6_eq valid).2
  form := formParse_serialize
  form_chars := serialize_chars
  form_nil := rfl
  form_cons := serialize_filled
  uuid := by
    intro id
    simp only [crates]
    exact parseUuid_text id
  uuid_filled := uuidText_filled

end UrlReference
end AnyTls
