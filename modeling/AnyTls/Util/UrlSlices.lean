import AnyTls.Library.ByteSlices
import AnyTls.Util.UrlReference

/-! The slices of `parse_url.rs`. The two functions that cut a URL by hand are written here with the
byte offsets they search for, so that a slice out of order or inside a character is a panic; the
definitions on lists of characters are what they compute. -/
namespace AnyTls.UrlSlices

open ByteSlices

/-- `&text[start..stop]`. -/
def cut (text : Text) (start stop : Nat) : Except UrlFailure Text :=
  match slice text start stop with
  | some piece => .ok piece
  | none => .error .panicked

/-- `&text[..stop]`. -/
def cutTo (text : Text) (stop : Nat) : Except UrlFailure Text := cut text 0 stop

/-- `&text[start..]`. -/
def cutFrom (text : Text) (start : Nat) : Except UrlFailure Text := cut text start (byteLength text)

/-- The authority after its last `@`. -/
def authAndHost (authority : Text) : Except UrlFailure Text :=
  match rfind (· = '@') authority with
  | some atPos => cutFrom authority (atPos + 1)
  | none => .ok authority

/-- Whether the host in brackets has a `%`. -/
def bracketsZone (authAndHost : Text) : Except UrlFailure Bool :=
  match find (· = '[') authAndHost with
  | none => .ok false
  | some hostStart => do
    let fromHost ← cutFrom authAndHost hostStart
    match find (· = ']') fromHost with
    | none => .ok false
    | some pos =>
      let hostEnd := hostStart + pos
      let host ← cut authAndHost hostStart hostEnd
      .ok (host.contains '%')

def isAnytlsIpv6ZoneUrl (rawUrl : Text) : Except UrlFailure Bool := do
  let raw := (afterPrefix ANYTLS_SCHEME rawUrl).getD rawUrl
  let authorityEnd := (find delimits raw).getD (byteLength raw)
  let authority ← cutTo raw authorityEnd
  let authAndHost ← authAndHost authority
  bracketsZone authAndHost

section
variable (crates : UrlCrates)

/-- The user information before the first `@`, and what follows it. -/
def splitUserinfo (withoutScheme : Text) : Except UrlFailure (Text × Text) :=
  match find (· = '@') withoutScheme with
  | some atPos => do
    let userinfo ← cutTo withoutScheme atPos
    let authorityAndRest ← cutFrom withoutScheme (atPos + 1)
    .ok (userinfo, authorityAndRest)
  | none => .ok ([], withoutScheme)

def serverPort (after : Text) : Except UrlFailure (UInt16 × Text) :=
  match afterPrefix [':'] after with
  | some afterColon => do
    let delim := (find delimits afterColon).getD (byteLength afterColon)
    let portText ← cutTo afterColon delim
    match parseU16 portText with
    | .error message => .error (invalidInput ("Invalid port in AnyTLS URL: " ++ message))
    | .ok port =>
      let rest ← cutFrom afterColon delim
      .ok (UInt16.ofNat port, rest)
  | none => .ok (443, after)

def password (userinfo : Text) : Except UrlFailure Text :=
  match find (· = ':') userinfo with
  | some colonPos => do
    let username ← cutTo userinfo colonPos
    if username ≠ [] then .ok username else cutFrom userinfo (colonPos + 1)
  | none => .ok userinfo

def query (rest : Text) : Except UrlFailure Text :=
  match find (· = '?') rest with
  | some questionPos => do
    let queryFragment ← cutFrom rest (questionPos + 1)
    match find (· = '#') queryFragment with
    | some hashPos => cutTo queryFragment hashPos
    | none => .ok queryFragment
  | none => .ok []

def parseAnytlsUrlIpv6Zone (rawUrl : Text) : Except UrlFailure ClientRuntimeConfig := do
  match afterPrefix ANYTLS_SCHEME rawUrl with
  | none => .error (invalidInput "URL scheme must be anytls")
  | some withoutScheme =>
    let (userinfo, authorityAndRest) ← splitUserinfo withoutScheme
    match find (· = '[') authorityAndRest, find (· = ']') authorityAndRest with
    | none, _ => .error (invalidInput "AnyTLS URL must include a host")
    | some _, none => .error (invalidInput "Invalid IPv6 host in AnyTLS URL")
    | some hostStart, some hostEnd =>
      let host ← cut authorityAndRest (hostStart + 1) hostEnd
      let serverHost := zoneHost host
      let after ← cutFrom authorityAndRest (hostEnd + 1)
      let (port, rest) ← serverPort after
      let password ← password userinfo
      let query ← query rest
      buildClientRuntimeConfig crates (bracketedAddress crates serverHost port) password query
        (zoneDisplayName rest)

def parseAnytlsUrl (rawUrl : Text) : Except UrlFailure ClientRuntimeConfig := do
  let zoned ← isAnytlsIpv6ZoneUrl rawUrl
  -- what is left to the `url` crate is not sliced here
  if zoned then parseAnytlsUrlIpv6Zone crates rawUrl else AnyTls.parseAnytlsUrl crates rawUrl

end

/-! ### What the slices are -/

theorem cut_append (front middle back) :
    cut (front ++ middle ++ back) (byteLength front) (byteLength (front ++ middle)) = .ok middle := by
  rw [cut, slice_append]

theorem cutTo_append (front back) : cutTo (front ++ back) (byteLength front) = .ok front :=
  cut_append [] front back

theorem cutFrom_append (front back) : cutFrom (front ++ back) (byteLength front) = .ok back := by
  have whole := cut_append front back []
  rwa [List.append_nil] at whole

/-- The slice after a separator of one byte. -/
theorem cutFrom_after (separator : Char) (single : separator.utf8Size = 1) (front back) :
    cutFrom (front ++ separator :: back) (byteLength front + 1) = .ok back := by
  have piece := cutFrom_append (front ++ [separator]) back
  rwa [List.append_assoc, List.singleton_append, byteLength_append, byteLength_cons, single] at piece

theorem cutTo_end (text) : cutTo text (byteLength text) = .ok text := by
  have whole := cutTo_append text []
  rwa [List.append_nil] at whole

theorem cutFrom_end (text) : cutFrom text (byteLength text) = .ok [] := by
  have whole := cutFrom_append text []
  rwa [List.append_nil] at whole

theorem takeWhile_all {p} {text : Text} (goes : ∀ char ∈ text, p char = true) :
    text.takeWhile p = text ∧ text.dropWhile p = [] := by
  rw [List.takeWhile_eq_self_iff, List.dropWhile_eq_nil_iff]
  exact ⟨goes, goes⟩

theorem takes_until {separator : Char} {text : Text} (missing : separator ∉ text) :
    ∀ char ∈ text, decide (char ≠ separator) = true := by
  rintro char member
  rw [decide_eq_true_eq]
  rintro rfl
  exact missing member

/-- The parts of a text at the first occurrence of a character. -/
theorem parts_at {separator : Char} {front : Text} (missing : separator ∉ front) (back) :
    (front ++ separator :: back).takeWhile (· ≠ separator) = front ∧
    (front ++ separator :: back).dropWhile (· ≠ separator) = separator :: back := by
  have here : ∀ c ∈ (separator :: back).head?, decide (c ≠ separator) = false := by rintro c ⟨⟩; simp
  exact ⟨takeWhile_append_stop (takes_until missing) here, dropWhile_append_stop (takes_until missing) here⟩

/-- The text up to the first match, all of it where there is none. -/
theorem cut_first (p : Char → Bool) (text) :
    cutTo text ((find p text).getD (byteLength text)) = .ok (text.takeWhile fun char => !p char) ∧
    cutFrom text ((find p text).getD (byteLength text)) = .ok (text.dropWhile fun char => !p char) := by
  rcases first_match p text with ⟨front, char, back, rfl, goes, stops⟩ | absent
  · have before : ∀ c ∈ front, (!p c) = true := fun c member => by rw [goes c member]; rfl
    have here : ∀ c ∈ (char :: back).head?, (!p c) = false := fun c same => by cases same; rw [stops]; rfl
    rw [find_append goes stops, Option.getD_some, takeWhile_append_stop before here,
      dropWhile_append_stop before here]
    exact ⟨cutTo_append .., cutFrom_append ..⟩
  · obtain ⟨taken, left⟩ := takeWhile_all (p := fun char => !p char) fun c member => by rw [absent c member]; rfl
    rw [find_absent absent, Option.getD_none, taken, left]
    exact ⟨cutTo_end text, cutFrom_end text⟩

/-- A search for a character finds what `split_once` splits at. -/
theorem find_splitOnce (separator : Char) (text) :
    (∃ front back, text = front ++ separator :: back ∧ separator ∉ front ∧
      splitOnce separator text = some (front, back) ∧ find (· = separator) text = some (byteLength front)) ∨
    (separator ∉ text ∧ splitOnce separator text = none ∧ find (· = separator) text = none) := by
  rcases first_match (· = separator) text with ⟨front, char, back, rfl, goes, stops⟩ | absent
  · obtain rfl : char = separator := of_decide_eq_true stops
    have missing : char ∉ front := fun member => by simpa using goes char member
    exact .inl ⟨front, back, rfl, missing, splitOnce_append missing back, find_append goes stops back⟩
  · have missing : separator ∉ text := fun member => by simpa using absent separator member
    exact .inr ⟨missing, splitOnce_none missing, find_absent absent⟩

/-! ### The guard -/

theorem authAndHost_computes (authority) :
    authAndHost authority = .ok (authority.reverse.takeWhile (· ≠ '@')).reverse := by
  unfold authAndHost
  rcases last_match (· = '@') authority with ⟨front, char, back, rfl, stops, goes⟩ | absent
  · obtain rfl : char = '@' := of_decide_eq_true stops
    have after : ((front ++ '@' :: back).reverse.takeWhile (· ≠ '@')).reverse = back := by
      rw [List.reverse_append, List.reverse_cons, List.append_assoc,
        takeWhile_append_stop (by simpa using goes) (by rintro c ⟨⟩; rfl), List.reverse_reverse]
    rw [rfind_append front stops goes, after]
    exact cutFrom_after '@' rfl front back
  · have missing : '@' ∉ authority.reverse := fun member => by simpa using absent '@' (List.mem_reverse.mp member)
    rw [rfind_absent absent, (takeWhile_all (takes_until missing)).1, List.reverse_reverse]

theorem bracketsZone_computes (authAndHost) :
    bracketsZone authAndHost = .ok (match authAndHost.dropWhile (· ≠ '[') with
      | [] => false
      | host => host.contains ']' && (host.takeWhile (· ≠ ']')).contains '%') := by
  unfold bracketsZone
  rcases find_splitOnce '[' authAndHost with ⟨front, back, rfl, missing, -, found⟩ | ⟨missing, -, found⟩
  · rw [found, (parts_at missing back).2]
    simp only [cutFrom_append, bind, Except.bind]
    rcases find_splitOnce ']' ('[' :: back) with ⟨host, rest, whole, unclosed, -, closed⟩ | ⟨unclosed, -, closed⟩
    · have host_cut := cut_append front host (']' :: rest)
      rw [List.append_assoc, ← whole, byteLength_append] at host_cut
      have taken : ('[' :: back).takeWhile (· ≠ ']') = host := by rw [whole]; exact (parts_at unclosed rest).1
      have inside : ']' ∈ '[' :: back := by rw [whole]; simp
      rw [closed, taken, List.contains_iff_mem.mpr inside]
      simp only [host_cut, Bool.true_and]
    · have outside : ('[' :: back).contains ']' = false := by simpa using unclosed
      rw [closed, outside]
      simp only [Bool.false_and]
  · rw [found, (takeWhile_all (takes_until missing)).2]

/-- No slice of the guard panics. -/
theorem isAnytlsIpv6ZoneUrl_computes (rawUrl) :
    isAnytlsIpv6ZoneUrl rawUrl = .ok (AnyTls.isAnytlsIpv6ZoneUrl rawUrl) := by
  unfold isAnytlsIpv6ZoneUrl AnyTls.isAnytlsIpv6ZoneUrl
  simp only [(cut_first _ _).1, authAndHost_computes, bind, Except.bind]
  exact bracketsZone_computes _

/-! ### The parser for zones -/

theorem splitUserinfo_computes (withoutScheme) :
    splitUserinfo withoutScheme = .ok ((splitOnce '@' withoutScheme).getD ([], withoutScheme)) := by
  unfold splitUserinfo
  rcases find_splitOnce '@' withoutScheme with ⟨front, back, rfl, -, split, found⟩ | ⟨-, split, found⟩
  · rw [split, found]
    simp only [cutTo_append, cutFrom_after '@' rfl, bind, Except.bind, Option.getD_some]
  · rw [split, found]
    rfl

theorem afterPrefix_eq {expected text rest} (found : afterPrefix expected text = some rest) :
    text = expected ++ rest := by
  induction expected generalizing text with
  | nil => cases found; rfl
  | cons first expected ih =>
    cases text with
    | nil => cases found
    | cons char text =>
      rw [afterPrefix] at found
      split_ifs at found with same
      rw [same, ih found]
      rfl

theorem serverPort_computes (after) : serverPort after = zonePort after := by
  unfold serverPort zonePort
  split
  · rename_i afterColon colon
    obtain rfl := afterPrefix_eq colon
    obtain ⟨taken, left⟩ := cut_first delimits afterColon
    rw [List.singleton_append]
    cases parsed : parseU16 (afterColon.takeWhile fun char => !delimits char) with
    | error message => simp only [taken, parsed, bind, Except.bind]
    | ok port => simp only [taken, left, parsed, bind, Except.bind]
  · rename_i colon
    split
    · rename_i afterColon
      rw [show ':' :: afterColon = [':'] ++ afterColon from rfl, afterPrefix_append] at colon
      cases colon
    · rfl

theorem password_computes (userinfo) : password userinfo = .ok (zonePassword userinfo) := by
  unfold password zonePassword
  rcases find_splitOnce ':' userinfo with ⟨front, back, rfl, -, split, found⟩ | ⟨-, split, found⟩
  · rw [split, found]
    simp only [cutTo_append, cutFrom_after ':' rfl, bind, Except.bind]
    split_ifs <;> rfl
  · rw [split, found]

theorem query_computes (rest) : query rest = .ok (zoneQuery rest) := by
  unfold query zoneQuery
  rcases find_splitOnce '?' rest with ⟨front, back, rfl, -, split, found⟩ | ⟨-, split, found⟩
  · rw [split, found]
    simp only [cutFrom_after '?' rfl, bind, Except.bind]
    rcases find_splitOnce '#' back with ⟨before, after, rfl, missing, -, hash⟩ | ⟨missing, -, hash⟩
    · rw [hash, (parts_at missing after).1]
      exact cutTo_append ..
    · rw [hash, (takeWhile_all (takes_until missing)).1]
  · rw [split, found]

/-- The text in which the parser for zones looks for the host: all that follows the first `@`. -/
def authorityAndRest (withoutScheme : Text) : Text := ((splitOnce '@' withoutScheme).getD ([], withoutScheme)).2

/-- No `]` comes before the first `[`, where there is one. -/
def BracketsInOrder (text : Text) : Prop := '[' ∈ text → ']' ∉ text.takeWhile (· ≠ '[')

instance (text : Text) : Decidable (BracketsInOrder text) := inferInstanceAs (Decidable (_ → _))

/-- The offsets and the places at which the first of a character is found. -/
theorem found_at {separator : Char} {front : Text} (missing : separator ∉ front) (back) :
    find (· = separator) (front ++ separator :: back) = some (byteLength front) ∧
    (front ++ separator :: back).findIdx? (· = separator) = some front.length := by
  have goes : ∀ char ∈ front, decide (char = separator) = false := fun char member => by
    simpa using takes_until missing char member
  exact ⟨find_append goes (decide_eq_true rfl) back, findIdx?_append_stop goes (decide_eq_true rfl)⟩

theorem found_nowhere {separator : Char} {text : Text} (missing : separator ∉ text) :
    find (· = separator) text = none ∧ text.findIdx? (· = separator) = none := by
  have goes : ∀ char ∈ text, decide (char = separator) = false := fun char member => by
    simpa using takes_until missing char member
  exact ⟨find_absent goes, List.findIdx?_eq_none_iff.mpr goes⟩

/-- The first brackets of a text as they are searched for, on offsets and on characters. -/
inductive BracketSearch (text : Text) : Prop where
  | unopened (start : find (· = '[') text = none) (first : text.findIdx? (· = '[') = none)
      (ordered : BracketsInOrder text)
  | unclosed (hostStart position : Nat) (start : find (· = '[') text = some hostStart)
      (first : text.findIdx? (· = '[') = some position) (stop : find (· = ']') text = none)
      (last : text.findIdx? (· = ']') = none) (ordered : BracketsInOrder text)
  | ordered (front host back : Text) (whole : text = front ++ '[' :: host ++ ']' :: back)
      (start : find (· = '[') text = some (byteLength front)) (first : text.findIdx? (· = '[') = some front.length)
      (stop : find (· = ']') text = some (byteLength (front ++ '[' :: host)))
      (last : text.findIdx? (· = ']') = some (front ++ '[' :: host).length) (ordered : BracketsInOrder text)
  | reversed (front between : Text) (start : find (· = '[') text = some (byteLength (front ++ ']' :: between)))
      (first : text.findIdx? (· = '[') = some (front ++ ']' :: between).length)
      (stop : find (· = ']') text = some (byteLength front)) (last : text.findIdx? (· = ']') = some front.length)
      (reversed : ¬ BracketsInOrder text)

theorem bracketSearch_ordered {front host} (back) (unopened : '[' ∉ front)
    (unclosed : ']' ∉ front ++ '[' :: host) : BracketSearch (front ++ '[' :: host ++ ']' :: back) := by
  have opens : front ++ '[' :: host ++ ']' :: back = front ++ '[' :: (host ++ ']' :: back) := by simp
  obtain ⟨stop, last⟩ := found_at unclosed back
  obtain ⟨start, first⟩ := found_at unopened (host ++ ']' :: back)
  have taken := (parts_at unopened (host ++ ']' :: back)).1
  rw [← opens] at start first taken
  refine .ordered front host back rfl start first stop last ?_
  intro _ before
  rw [taken] at before
  exact unclosed (List.mem_append_left _ before)

theorem bracketSearch_reversed {front between} (back) (unclosed : ']' ∉ front)
    (unopened : '[' ∉ front ++ ']' :: between) : BracketSearch (front ++ ']' :: between ++ '[' :: back) := by
  have closes : front ++ ']' :: between ++ '[' :: back = front ++ ']' :: (between ++ '[' :: back) := by simp
  obtain ⟨start, first⟩ := found_at unopened back
  obtain ⟨stop, last⟩ := found_at unclosed (between ++ '[' :: back)
  rw [← closes] at stop last
  refine .reversed front between start first stop last ?_
  intro ordered
  have clean := ordered (by simp)
  rw [(parts_at unopened back).1] at clean
  exact clean (by simp)

theorem bracketSearch (text) : BracketSearch text := by
  rcases find_splitOnce '[' text with ⟨front, back, opens, unopened, -⟩ | ⟨missing, -⟩
  · rcases find_splitOnce ']' text with ⟨front', back', closes, unclosed, -⟩ | ⟨missing, -⟩
    · -- of the two brackets one comes first
      rcases List.append_eq_append_iff.mp (opens.symm.trans closes) with ⟨more, whole, rest⟩ | ⟨more, whole, rest⟩
      · cases more with
        | nil => cases rest
        | cons char host =>
          cases rest
          subst whole
          rw [closes]
          exact bracketSearch_ordered back' unopened unclosed
      · cases more with
        | nil => cases rest
        | cons char between =>
          cases rest
          subst whole
          rw [opens]
          exact bracketSearch_reversed back unclosed unopened
    · obtain ⟨start, first⟩ := found_at unopened back
      rw [← opens] at start first
      exact .unclosed _ _ start first (found_nowhere missing).1 (found_nowhere missing).2
        fun _ before => missing ((List.takeWhile_sublist _).subset before)
  · exact .unopened (found_nowhere missing).1 (found_nowhere missing).2 fun opened => absurd opened missing

/-- A slice that ends before it starts. -/
theorem cut_reversed {text start stop} (reversed : stop < start) :
    cut text start stop = .error .panicked := by
  have none : slice text start stop = none := by
    rw [← Option.not_isSome_iff_eq_none, slice_isSome]
    rintro ⟨ordered, -⟩
    omega
  rw [cut, none]

/-- The slices of the parser are those of the definition on characters, and it panics at the one
that it names. -/
theorem parseAnytlsUrlIpv6Zone_computes (crates rawUrl) :
    parseAnytlsUrlIpv6Zone crates rawUrl = AnyTls.parseAnytlsUrlIpv6Zone crates rawUrl := by
  unfold parseAnytlsUrlIpv6Zone AnyTls.parseAnytlsUrlIpv6Zone
  cases afterPrefix ANYTLS_SCHEME rawUrl with
  | none => rfl
  | some withoutScheme =>
    simp only [splitUserinfo_computes, bind, Except.bind]
    generalize (splitOnce '@' withoutScheme).getD ([], withoutScheme) = parts
    obtain ⟨userinfo, text⟩ := parts
    simp only
    cases bracketSearch text with
    | unopened start first ordered => simp only [start, first]
    | unclosed hostStart position start first stop last ordered => simp only [start, first, stop, last]
    | ordered front host back whole start first stop last ordered =>
      have room : ¬ (front ++ '[' :: host).length < front.length + 1 := by simp
      have inside : cut text (byteLength front + 1) (byteLength (front ++ '[' :: host)) = .ok host := by
        have piece := cut_append (front ++ ['[']) host (']' :: back)
        rwa [byteLength_append, List.append_assoc front, List.singleton_append, ← whole] at piece
      have after : cutFrom text (byteLength (front ++ '[' :: host) + 1) = .ok back := by
        rw [whole]
        exact cutFrom_after ']' rfl ..
      have between : (text.take (front ++ '[' :: host).length).drop (front.length + 1) = host := by
        rw [whole, List.take_left' rfl, List.drop_append]
        simp
      have rest : text.drop ((front ++ '[' :: host).length + 1) = back := by
        rw [whole, List.drop_append]
        simp
      simp only [start, stop, first, last]
      rw [if_neg room, inside, between, rest]
      simp only [after, serverPort_computes, password_computes, query_computes]
      cases zonePort back <;> rfl
    | reversed front between start first stop last reversed =>
      have shorter : front.length < (front ++ ']' :: between).length + 1 := by
        rw [List.length_append]
        omega
      have backwards : byteLength front < byteLength (front ++ ']' :: between) + 1 := by
        rw [byteLength_append]
        omega
      simp only [start, stop, first, last]
      rw [if_pos shorter, cut_reversed backwards]

/-- The parser on byte offsets is the one on characters, panics included. -/
theorem parseAnytlsUrl_computes (crates rawUrl) :
    parseAnytlsUrl crates rawUrl = AnyTls.parseAnytlsUrl crates rawUrl := by
  unfold parseAnytlsUrl
  rw [isAnytlsIpv6ZoneUrl_computes]
  simp only [bind, Except.bind]
  split_ifs with zoned
  · rw [parseAnytlsUrlIpv6Zone_computes, AnyTls.parseAnytlsUrl, if_pos zoned]
  · rfl

/-! ### Where it panics -/

section
variable (crates : UrlCrates)

theorem apply_returns (fields : QueryFields) (key value) : fields.apply crates key value ≠ .error .panicked := by
  unfold QueryFields.apply invalidInput
  split_ifs
  all_goals try (intro failed; cases failed)
  cases crates.parseUuid value <;> (intro failed; cases failed)

theorem applyPairs_returns (fields : QueryFields) (pairs : List (Text × Text)) :
    applyPairs crates fields pairs ≠ .error .panicked := by
  induction pairs generalizing fields with
  | nil => intro failed; cases failed
  | cons pair pairs ih =>
    have applied := apply_returns crates fields pair.1 pair.2
    rw [applyPairs]
    cases result : fields.apply crates pair.1 pair.2 with
    | error error => rwa [result] at applied
    | ok fields => exact ih fields

theorem buildClientRuntimeConfig_returns (server : Address) (password query) (fragment : Option Text) :
    buildClientRuntimeConfig crates server password query fragment ≠ .error .panicked := by
  have applied := applyPairs_returns crates ⟨none, false, none⟩ (crates.formParse query)
  unfold buildClientRuntimeConfig
  cases result : applyPairs crates ⟨none, false, none⟩ (crates.formParse query) with
  | error error => rw [result] at applied; simpa using applied
  | ok fields => simp

theorem zonePort_returns (after) : zonePort after ≠ .error .panicked := by
  unfold zonePort invalidInput
  split
  · split <;> (intro failed; cases failed)
  · intro failed; cases failed

theorem parseAnytlsUrlIpv6Zone_panics (rawUrl) :
    AnyTls.parseAnytlsUrlIpv6Zone crates rawUrl = .error .panicked ↔
    ∃ withoutScheme ∈ afterPrefix ANYTLS_SCHEME rawUrl, ¬ BracketsInOrder (authorityAndRest withoutScheme) := by
  unfold AnyTls.parseAnytlsUrlIpv6Zone authorityAndRest
  cases afterPrefix ANYTLS_SCHEME rawUrl with
  | none => simp [invalidInput]
  | some withoutScheme =>
    simp only [Option.mem_some_iff, exists_eq_left']
    generalize (splitOnce '@' withoutScheme).getD ([], withoutScheme) = parts
    obtain ⟨userinfo, text⟩ := parts
    simp only
    cases bracketSearch text with
    | unopened start first ordered => simp [first, ordered, invalidInput]
    | unclosed hostStart position start first stop last ordered => simp [first, last, ordered, invalidInput]
    | ordered front host back whole start first stop last ordered =>
      have room : ¬ (front ++ '[' :: host).length < front.length + 1 := by simp
      simp only [first, last, ordered, not_true_eq_false, iff_false]
      rw [if_neg room]
      have port := zonePort_returns (text.drop ((front ++ '[' :: host).length + 1))
      cases result : zonePort (text.drop ((front ++ '[' :: host).length + 1)) with
      | error error => rw [result] at port; simpa using port
      | ok parsed => exact buildClientRuntimeConfig_returns crates _ _ _ _
    | reversed front between start first stop last reversed =>
      have shorter : front.length < (front ++ ']' :: between).length + 1 := by
        rw [List.length_append]
        omega
      simp only [first, last, reversed, not_false_eq_true, iff_true]
      rw [if_pos shorter]

/-- A URL makes the parser panic exactly if it goes to the parser for zones and that finds the
brackets in the wrong order. -/
theorem parseAnytlsUrl_panics (rawUrl) : parseAnytlsUrl crates rawUrl = .error .panicked ↔
    AnyTls.isAnytlsIpv6ZoneUrl rawUrl = true ∧
    ∃ withoutScheme ∈ afterPrefix ANYTLS_SCHEME rawUrl, ¬ BracketsInOrder (authorityAndRest withoutScheme) := by
  rw [parseAnytlsUrl_computes, AnyTls.parseAnytlsUrl]
  cases AnyTls.isAnytlsIpv6ZoneUrl rawUrl with
  | true => simpa using parseAnytlsUrlIpv6Zone_panics crates rawUrl
  | false =>
    simp only [Bool.false_eq_true, if_false, false_and, iff_false]
    cases crates.parse rawUrl with
    | error message => simp
    | ok url =>
      by_cases named : url.scheme = "anytls".toList
      · simp only [named, ne_eq, not_true_eq_false, if_false]
        cases url.hostStr with
        | none => simp [invalidInput]
        | some host => exact buildClientRuntimeConfig_returns crates _ _ _ _
      · simp only [ne_eq, named, not_false_eq_true, if_true]
        simp [invalidInput]

end

/-- A URL is parsed or refused exactly if it goes to the `url` crate or its brackets come in order
after its first `@`. The test for a zone always answers. -/
theorem parse_returns (crates : UrlCrates) (rawUrl : Text) :
    (∃ zoned, isAnytlsIpv6ZoneUrl rawUrl = .ok zoned) ∧
    (((∃ config, parseAnytlsUrl crates rawUrl = .ok config) ∨
        ∃ error, parseAnytlsUrl crates rawUrl = .error (.io error)) ↔
      (AnyTls.isAnytlsIpv6ZoneUrl rawUrl = true →
        ∀ withoutScheme ∈ afterPrefix ANYTLS_SCHEME rawUrl, BracketsInOrder (authorityAndRest withoutScheme))) := by
  refine ⟨⟨_, isAnytlsIpv6ZoneUrl_computes rawUrl⟩, fun returned => ?_, fun ordered => ?_⟩
  · intro zoned withoutScheme stripped
    by_contra reversed
    have panics := (parseAnytlsUrl_panics crates rawUrl).mpr ⟨zoned, withoutScheme, stripped, reversed⟩
    rcases returned with ⟨config, parsed⟩ | ⟨error, refused⟩
    · cases panics.symm.trans parsed
    · cases panics.symm.trans refused
  · cases result : parseAnytlsUrl crates rawUrl with
    | ok config => exact .inl ⟨config, rfl⟩
    | error failure =>
      cases failure with
      | io error => exact .inr ⟨error, rfl⟩
      | panicked =>
        obtain ⟨zoned, withoutScheme, stripped, reversed⟩ := (parseAnytlsUrl_panics crates rawUrl).mp result
        exact absurd (ordered zoned withoutScheme stripped) reversed

theorem parse_returns_zone :
    (∃ config, parseAnytlsUrl UrlReference.crates "anytls://pass]word@[fe80::1%eth0]:8443".toList = .ok config) ∨
      ∃ error, parseAnytlsUrl UrlReference.crates "anytls://pass]word@[fe80::1%eth0]:8443".toList = .error (.io error) :=
  (parse_returns UrlReference.crates "anytls://pass]word@[fe80::1%eth0]:8443".toList).2.mpr (by decide)

/-- The guard looks for `]` behind the `[`, the parser from the start, and the guard takes the last
`@` of the authority where the parser takes the first. -/
theorem parse_panics :
    parseAnytlsUrl UrlReference.crates "anytls://][%]".toList = .error .panicked ∧
    parseAnytlsUrl UrlReference.crates "anytls://p@ss]word@[fe80::1%eth0]:443".toList = .error .panicked := by
  decide +kernel

end AnyTls.UrlSlices
