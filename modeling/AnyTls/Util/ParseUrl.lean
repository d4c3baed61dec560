import AnyTls.Core.Io
import AnyTls.Core.StringMap
import AnyTls.Library.PercentEncoding
import Mathlib.Data.List.Infix

/-! Connection URLs: `util/parse_url.rs`. A URL whose IPv6 host has a zone is read by a
parser of the program's own, every other one by the `url` crate; what is left, the query
and the fragment, then goes the same way. -/
namespace AnyTls

abbrev Text := List Char

/-- What the URLs use of an `Address`: `host()`, `port()` and `is_ipv6()`. -/
structure Address where
  host : Text
  port : UInt16
  isIpv6 : Bool
deriving DecidableEq

structure ClientRuntimeConfig where
  server : Address
  password : Text
  sni : Option Text
  clientId : Option (BitVec 128)
  insecure : Bool
  displayName : Option Text
deriving DecidableEq

/-! ### Percent encoding of texts -/

def utf8 (text : Text) : Bytes := asBytes (String.ofList text)

def asciiText (bytes : Bytes) : Text := bytes.map fun byte => Char.ofNat byte.toNat

/-- `percent_decode_str(..).decode_utf8_lossy()`. -/
def percentDecodeStr (text : Text) : Text := fromUtf8Lossy (PercentEncoding.decode (utf8 text))

/-- An `AsciiSet`: `CONTROLS` and the characters given. -/
def asciiSet (chars : String) (byte : UInt8) : Bool :=
  byte.toNat < 0x20 || byte.toNat = 0x7F || (chars.toList.map Char.toNat).contains byte.toNat

/-- `utf8_percent_encode`; bytes that are not ASCII are always encoded. -/
def utf8PercentEncode (set : UInt8 → Bool) (value : Text) : Text :=
  asciiText (PercentEncoding.encode (fun byte => 0x80 ≤ byte.toNat || set byte) (utf8 value))

def USERINFO_ENCODE_SET : UInt8 → Bool := asciiSet " \"#<>?@[\\]^`\x7b|\x7d"

def percentEncodeUserinfo (value : Text) : Text := utf8PercentEncode USERINFO_ENCODE_SET value

def FRAGMENT_ENCODE_SET : UInt8 → Bool := asciiSet " \"<>`"

def percentEncodeFragment (value : Text) : Text := utf8PercentEncode FRAGMENT_ENCODE_SET value

/-! ### The crates -/

/-- A parsed `Url`, as far as it is read. -/
structure Url where
  scheme : Text
  username : Text
  password : Option Text
  hostStr : Option Text
  port : Option UInt16
  query : Option Text
  fragment : Option Text
deriving DecidableEq

/-- The crates the URLs go through. `ipv6` is the text of an IPv6 address as it is
displayed, for a text that is one. -/
structure UrlCrates where
  parse : Text → Except String Url
  serialize : List (Text × Text) → Text
  formParse : Text → List (Text × Text)
  ipv6 : Text → Option Text
  uuidText : BitVec 128 → Text
  parseUuid : Text → Except String (BitVec 128)

/-- A call that fails, or panics at a slice. -/
inductive UrlFailure where
  | io (error : IoError)
  | panicked
deriving DecidableEq

def invalidInput (message : String) : UrlFailure := .io ⟨.invalidInput, message⟩

section
variable (crates : UrlCrates)

/-- `host()` of the socket address that `[host]:port` is parsed as. It may have a numeric
scope, which `host()` leaves out. -/
def socketHost (host : Text) : Option Text :=
  match splitOnce '%' host with
  | none => crates.ipv6 host
  | some (_, []) => none
  | some (address, scope) => (digits (2 ^ 32) 0 scope).bind fun _ => crates.ipv6 address

/-- The socket address `[host]:port`, or the two as a domain. -/
def bracketedAddress (host : Text) (port : UInt16) : Address :=
  match socketHost crates host with
  | some ip => ⟨ip, port, true⟩
  | none => ⟨host, port, false⟩

/-! ### Printing -/

/-- `String::from(&config)`. -/
def ClientRuntimeConfig.toUrl (config : ClientRuntimeConfig) : Text :=
  let host := config.server.host.flatMap fun char => if char = '%' then "%25".toList else [char]
  let host := if config.server.isIpv6 || host.contains ':' then '[' :: host ++ [']'] else host
  let authority :=
    if config.server.port = 443 then host else host ++ ':' :: (toString config.server.port.toNat).toList
  let userinfo :=
    if config.password.isEmpty then [] else percentEncodeUserinfo config.password ++ ['@']
  let query := crates.serialize ((config.sni.map fun sni => ("sni".toList, sni)).toList ++
    (if config.insecure then [("insecure".toList, "1".toList)] else []) ++
    (config.clientId.map fun id => ("client_id".toList, crates.uuidText id)).toList)
  "anytls://".toList ++ userinfo ++ authority ++
    (if query.isEmpty then [] else "/?".toList ++ query) ++
    config.displayName.elim [] fun name => '#' :: percentEncodeFragment name

/-! ### Parsing -/

/-- What the parameters of the query have set so far. -/
structure QueryFields where
  sni : Option Text
  insecure : Bool
  clientId : Option (BitVec 128)
deriving DecidableEq

def QueryFields.apply (fields : QueryFields) (key value : Text) : Except UrlFailure QueryFields :=
  if key = "password".toList then
    .error (invalidInput "Password must be provided in the URI auth field, not in query parameters")
  else if key = "sni".toList then .ok { fields with sni := some value }
  else if key = "insecure".toList then
    if value = "1".toList then .ok { fields with insecure := true }
    else if value = "0".toList then .ok { fields with insecure := false }
    else .error (invalidInput ("Invalid insecure value in AnyTLS URL: " ++ String.ofList value))
  else if key = "client_id".toList ∧ value ≠ [] then
    match crates.parseUuid value with
    | .error message => .error (.io (.otherError message))
    | .ok id => .ok { fields with clientId := some id }
  else .ok fields

def applyPairs (fields : QueryFields) : List (Text × Text) → Except UrlFailure QueryFields
  | [] => .ok fields
  | (key, value) :: rest =>
    match fields.apply crates key value with
    | .error error => .error error
    | .ok fields => applyPairs fields rest

def buildClientRuntimeConfig (server : Address) (password query : Text) (fragment : Option Text) :
    Except UrlFailure ClientRuntimeConfig :=
  let displayName := (fragment.map percentDecodeStr).filter fun name => !name.isEmpty
  match applyPairs crates ⟨none, false, none⟩ (crates.formParse query) with
  | .error error => .error error
  | .ok fields => .ok ⟨server, password, fields.sni, fields.clientId, fields.insecure, displayName⟩

/-- `str::strip_prefix`. -/
def afterPrefix : Text → Text → Option Text
  | [], text => some text
  | _ :: _, [] => none
  | first :: expected, char :: rest => if char = first then afterPrefix expected rest else none

def ANYTLS_SCHEME : Text := "anytls://".toList

/-- A character that ends the authority. -/
def delimits (char : Char) : Bool := char = '/' || char = '?' || char = '#'

def isAnytlsIpv6ZoneUrl (rawUrl : Text) : Bool :=
  let raw := (afterPrefix ANYTLS_SCHEME rawUrl).getD rawUrl
  let authority := raw.takeWhile fun char => !delimits char
  let authAndHost := (authority.reverse.takeWhile (· ≠ '@')).reverse
  match authAndHost.dropWhile (· ≠ '[') with
  | [] => false
  | host => host.contains ']' && (host.takeWhile (· ≠ ']')).contains '%'

/-- `char::is_whitespace`. -/
def isWhitespace (char : Char) : Bool :=
  let code := char.toNat
  (0x09 ≤ code && code ≤ 0x0D) || code = 0x20 || code = 0x85 || code = 0xA0 || code = 0x1680 ||
  (0x2000 ≤ code && code ≤ 0x200A) || code = 0x2028 || code = 0x2029 || code = 0x202F || code = 0x205F ||
  code = 0x3000

def trim (text : Text) : Text := ((text.dropWhile isWhitespace).reverse.dropWhile isWhitespace).reverse

def numeral (limit value : Nat) : Text → Except String Nat
  | [] => .ok value
  | char :: rest =>
    if char.isDigit then
      let value := value * 10 + (char.toNat - '0'.toNat)
      if value < limit then numeral limit value rest else .error "number too large to fit in target type"
    else .error "invalid digit found in string"

/-- `str::parse::<u16>`. -/
def parseU16 (text : Text) : Except String Nat :=
  match text with
  | [] => .error "cannot parse integer from empty string"
  | ['+'] => .error "invalid digit found in string"
  | '+' :: rest => numeral 65536 0 rest
  | chars => numeral 65536 0 chars

/-- The port after the host, and what follows it. -/
def zonePort (after : Text) : Except UrlFailure (UInt16 × Text) :=
  match after with
  | ':' :: afterColon =>
    match parseU16 (afterColon.takeWhile fun char => !delimits char) with
    | .error message => .error (invalidInput ("Invalid port in AnyTLS URL: " ++ message))
    | .ok port => .ok (UInt16.ofNat port, afterColon.dropWhile fun char => !delimits char)
  | _ => .ok (443, after)

def zonePassword (userinfo : Text) : Text :=
  match splitOnce ':' userinfo with
  | some (username, password) => if username ≠ [] then username else password
  | none => userinfo

def zoneQuery (rest : Text) : Text :=
  match splitOnce '?' rest with
  | some (_, query) => query.takeWhile (· ≠ '#')
  | none => []

def zoneDisplayName (rest : Text) : Option Text :=
  match splitOnce '#' rest with
  | some (_, frag) => if trim frag = [] then none else some (percentDecodeStr (trim frag))
  | none => none

/-- The host in brackets, decoded where it has an encoded `%`. -/
def zoneHost (host : Text) : Text := if "%25".toList <:+: host then percentDecodeStr host else host

def parseAnytlsUrlIpv6Zone (rawUrl : Text) : Except UrlFailure ClientRuntimeConfig :=
  match afterPrefix ANYTLS_SCHEME rawUrl with
  | none => .error (invalidInput "URL scheme must be anytls")
  | some withoutScheme =>
    let (userinfo, authorityAndRest) := (splitOnce '@' withoutScheme).getD ([], withoutScheme)
    match authorityAndRest.findIdx? (· = '['), authorityAndRest.findIdx? (· = ']') with
    | none, _ => .error (invalidInput "AnyTLS URL must include a host")
    | some _, none => .error (invalidInput "Invalid IPv6 host in AnyTLS URL")
    | some hostStart, some hostEnd =>
      if hostEnd < hostStart + 1 then .error .panicked
      else
        let serverHost := zoneHost ((authorityAndRest.take hostEnd).drop (hostStart + 1))
        match zonePort (authorityAndRest.drop (hostEnd + 1)) with
        | .error error => .error error
        | .ok (port, rest) =>
          buildClientRuntimeConfig crates (bracketedAddress crates serverHost port) (zonePassword userinfo)
            (zoneQuery rest) (zoneDisplayName rest)

/-- The host without its brackets, if it has both. -/
def unbracketed (host : Text) : Text :=
  match host with
  | '[' :: rest => if rest.getLast? = some ']' then rest.dropLast else host
  | _ => host

def parseAnytlsUrl (rawUrl : Text) : Except UrlFailure ClientRuntimeConfig :=
  if isAnytlsIpv6ZoneUrl rawUrl then parseAnytlsUrlIpv6Zone crates rawUrl
  else
    match crates.parse rawUrl with
    | .error message => .error (.io (.otherError message))
    | .ok url =>
      if url.scheme ≠ "anytls".toList then .error (invalidInput "URL scheme must be anytls")
      else
        match url.hostStr with
        | none => .error (invalidInput "AnyTLS URL must include a host")
        | some hostStr =>
          let host := unbracketed hostStr
          let port := url.port.getD 443
          let server := if host.contains ':' then bracketedAddress crates host port else ⟨host, port, false⟩
          let password := if url.username = [] then url.password.getD [] else url.username
          buildClientRuntimeConfig crates server password (url.query.getD []) url.fragment

end

end AnyTls
