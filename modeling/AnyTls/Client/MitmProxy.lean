import AnyTls.Core.Io
import AnyTls.Core.TextRoundTrip
import AnyTls.Library.BufferedLines
import AnyTls.Util.ParseUrl

/-! `connect_via_mitm_proxy` of `client_runner.rs`: a tunnel through an HTTP proxy. The answer to the
CONNECT request is read in lines through a `BufReader`, which is then taken apart: what it has read
ahead is gone. -/
namespace AnyTls
open BufferedLines

def newline : UInt8 := 0x0A

/-- The buffer of a `BufReader`. -/
def bufCapacity : Nat := 8192

abbrev ProxyReader := Reader UInt8 IoError

/-- `read_line`: the line and the number of its bytes. -/
def readLine (reader : ProxyReader) : Except IoError (Text × Nat × ProxyReader) := do
  let (bytes, reader) ← reader.readUntil bufCapacity newline
  match fromUtf8 bytes with
  | some line => .ok (line, bytes.length, reader)
  | none => .error ⟨.invalidData, "stream did not contain valid UTF-8"⟩

def trimEnd (text : Text) : Text := (text.reverse.dropWhile isWhitespace).reverse

def connectRequest (targetAuthority : String) : Bytes :=
  asBytes ("CONNECT " ++ targetAuthority ++ " HTTP/1.1\r\nHost: " ++ targetAuthority ++
    "\r\nProxy-Connection: Keep-Alive\r\n\r\n")

def blankLine (line : Text) : Bool := line = "\r\n".toList || line = "\n".toList

def granted (statusLine : Text) : Bool :=
  "HTTP/1.1 200".toList.isPrefixOf statusLine || "HTTP/1.0 200".toList.isPrefixOf statusLine

/-- The loop over the lines after the first. -/
def skipFieldsFuel : Nat → ProxyReader → Except IoError ProxyReader
  | 0, reader => .ok reader
  | fuel + 1, reader => do
    let (line, n, reader) ← readLine reader
    if n = 0 || blankLine line then .ok reader else skipFieldsFuel fuel reader

/-- Every line but the last takes something. -/
def skipFields (reader : ProxyReader) : Except IoError ProxyReader := skipFieldsFuel (reader.pending.length + 1) reader

/-- What the proxy and the system do: the results of the calls on the socket, what arrives on it and
how that ends. -/
structure ProxyConnection where
  connected : Except IoError Unit
  written : Except IoError Unit
  segments : List Bytes
  failure : Option IoError
  /-- `set_nodelay` on the socket that is handed on -/
  released : Except IoError Unit

def ProxyConnection.reader (proxy : ProxyConnection) : ProxyReader := ⟨[], proxy.segments, proxy.failure⟩

/-- The connection that is handed on. -/
structure MitmStream where
  /-- history: what was sent to the proxy -/
  request : Bytes
  /-- history: what was in the buffer of the reader -/
  dropped : Bytes
  segments : List Bytes
deriving DecidableEq

def connectViaMitmProxy (targetAuthority : String) (proxy : ProxyConnection) : Except IoError MitmStream := do
  proxy.connected
  proxy.written
  let (statusLine, _, reader) ← readLine proxy.reader
  if !granted statusLine then
    .error (IoError.otherError ("HTTP proxy CONNECT failed: " ++ String.ofList (trimEnd statusLine)))
  else
    let reader ← skipFields reader
    proxy.released
    .ok ⟨connectRequest targetAuthority, reader.ahead, reader.segments⟩

/-! ### The answers that are accepted -/

/-- A line of text. -/
def TextLine (line : Bytes) (text : Text) : Prop := Ended newline line ∧ fromUtf8 line = some text

/-- The rest of a head and what follows it: lines up to a blank one, or up to the end of the connection. -/
inductive Fields (failure : Option IoError) : Bytes → Bytes → Prop
  | blank {line payload : Bytes} {text : Text} : TextLine line text → blankLine text = true → Fields failure line payload
  | cut {line : Bytes} {text : Text} : failure = none → newline ∉ line → fromUtf8 line = some text →
    Fields failure line []
  | field {line rest payload : Bytes} {text : Text} : TextLine line text → blankLine text = false →
    Fields failure rest payload → Fields failure (line ++ rest) payload

/-- A head that grants the tunnel, and what follows it. -/
inductive Grants (failure : Option IoError) : Bytes → Bytes → Prop
  | head {status rest payload : Bytes} {text : Text} : TextLine status text → granted text = true →
    Fields failure rest payload → Grants failure (status ++ rest) payload
  | cut {status : Bytes} {text : Text} : failure = none → newline ∉ status → fromUtf8 status = some text →
    granted text = true → Grants failure status []

theorem bind_ok {ε α β : Type} {first : Except ε α} {next : α → Except ε β} {result : β}
    (done : first >>= next = .ok result) : ∃ value, first = .ok value ∧ next value = .ok result := by
  cases first with
  | error error => cases done
  | ok value => exact ⟨value, rfl, done⟩

theorem capacity_pos : bufCapacity ≠ 0 := by decide

theorem TextLine.length_pos {line text} (is : TextLine line text) : 0 < line.length := by
  obtain ⟨⟨content, -, rfl⟩, -⟩ := is
  rw [List.length_append]
  exact Nat.lt_add_left _ Nat.one_pos

/-! ### One line -/

section ReadLine
variable {reader next : ProxyReader} {line rest : Bytes} {text : Text} {front back : List Bytes} {n : Nat}

theorem readLine_line (is : TextLine line text) (split : reader.segments = front ++ back)
    (starts : reader.ahead ++ front.flatten = line ++ rest) :
    ∃ ahead later, readLine reader = .ok (text, line.length, { reader with ahead, segments := later ++ back }) ∧
      ahead ++ later.flatten = rest ∧ Segments.LeftOf bufCapacity later front := by
  obtain ⟨ended, valid⟩ := is
  obtain ⟨ahead, later, read, left, taken⟩ := Reader.readUntil_line capacity_pos ended split starts
  refine ⟨ahead, later, ?_, left, taken⟩
  simp only [readLine, read, bind, Except.bind, valid]

theorem readLine_cut (quiet : reader.failure = none) (missing : newline ∉ reader.pending)
    (valid : fromUtf8 reader.pending = some text) :
    readLine reader = .ok (text, reader.pending.length, { reader with ahead := [], segments := [] }) := by
  simp only [readLine, Reader.readUntil_cut capacity_pos missing, quiet, Option.elim_none, bind, Except.bind, valid]

/-- What `read_line` returns is the next line, or the last one of a connection that has ended. -/
theorem readLine_cases (read : readLine reader = .ok (text, n, next)) :
    next.failure = reader.failure ∧ ((∃ line, TextLine line text ∧ n = line.length ∧ reader.pending = line ++ next.pending) ∨
      reader.failure = none ∧ newline ∉ reader.pending ∧ fromUtf8 reader.pending = some text ∧
        n = reader.pending.length ∧ next.pending = []) := by
  by_cases found : newline ∈ reader.pending
  · have ended := line_ended found
    have parts := line_append_after newline reader.pending
    obtain ⟨ahead, later, taken, left, -⟩ := Reader.readUntil_line capacity_pos ended (List.append_nil _).symm parts.symm
    simp only [readLine, taken, bind, Except.bind] at read
    split at read
    · rename_i valid
      cases read
      refine ⟨rfl, .inl ⟨_, ⟨ended, valid⟩, rfl, ?_⟩⟩
      rw [List.append_nil]
      exact parts.symm.trans (congrArg _ left.symm)
    · cases read
  · simp only [readLine, Reader.readUntil_cut capacity_pos found] at read
    cases quiet : reader.failure with
    | some error =>
      rw [quiet] at read
      cases read
    | none =>
      simp only [quiet, Option.elim_none, bind, Except.bind] at read
      split at read
      · rename_i valid
        cases read
        exact ⟨rfl, .inr ⟨rfl, found, valid, rfl, rfl⟩⟩
      · cases read

end ReadLine

/-! ### The head -/

section Skip
variable {failure : Option IoError} {reader next : ProxyReader} {head payload inside : Bytes} {front back : List Bytes}
  {fuel : Nat}

theorem skipFieldsFuel_read {text n} (read : readLine reader = .ok (text, n, next)) :
    skipFieldsFuel (fuel + 1) reader = if n = 0 || blankLine text then .ok next else skipFieldsFuel fuel next := by
  simp only [skipFieldsFuel, read, bind, Except.bind]

/-- The lines that are skipped are the rest of a head. -/
theorem skipFields_sound (enough : reader.pending.length < fuel) (skipped : skipFieldsFuel fuel reader = .ok next) :
    ∃ head, Fields reader.failure head next.pending ∧ reader.pending = head ++ next.pending := by
  induction fuel generalizing reader with
  | zero => cases enough
  | succ fuel ih =>
    obtain ⟨⟨text, n, between⟩, read, -⟩ := bind_ok skipped
    rw [skipFieldsFuel_read read] at skipped
    obtain ⟨same, ⟨line, is, rfl, starts⟩ | ⟨quiet, missing, valid, rfl, ended⟩⟩ := readLine_cases read
    · have some := is.length_pos
      split_ifs at skipped with last
      · cases skipped
        have blank : blankLine text = true := by simpa [some.ne'] using last
        exact ⟨line, .blank is blank, starts⟩
      · have other : blankLine text = false := by simpa [some.ne'] using last
        rw [starts, List.length_append] at enough
        obtain ⟨head, fields, more⟩ := ih (by omega) skipped
        rw [same] at fields
        exact ⟨line ++ head, .field is other fields, by rw [starts, more, List.append_assoc]⟩
    · have final : next.pending = [] := by
        split_ifs at skipped with last
        · cases skipped
          exact ended
        · simp only [Bool.or_eq_true, decide_eq_true_eq, not_or] at last
          obtain ⟨head, -, more⟩ := ih (by rw [ended]; simp only [List.length_nil]; omega) skipped
          rw [ended] at more
          exact (List.append_eq_nil_iff.mp more.symm).2
      rw [final]
      exact ⟨_, .cut quiet missing valid, (List.append_nil _).symm⟩

/-- A head that lies in the front segments is skipped. -/
theorem Fields.skipped (fields : Fields failure head payload) (how : reader.failure = failure)
    (split : reader.segments = front ++ back) (starts : reader.ahead ++ front.flatten = head ++ inside)
    (follows : payload = inside ++ back.flatten) (enough : head.length < fuel) :
    ∃ next, skipFieldsFuel fuel reader = .ok next ∧ next.pending = payload ∧
      ∃ later, next.ahead ++ later.flatten = inside ∧ Segments.LeftOf bufCapacity later front := by
  induction fields generalizing reader front fuel with
  | @blank line payload text is blank =>
    obtain ⟨fuel, rfl⟩ := Nat.exists_eq_add_one_of_ne_zero (Nat.ne_zero_of_lt enough)
    obtain ⟨ahead, later, read, left, taken⟩ := readLine_line is split starts
    rw [skipFieldsFuel_read read, blank, Bool.or_true, if_pos rfl]
    refine ⟨_, rfl, ?_, later, left, taken⟩
    rw [Reader.pending, List.flatten_append, ← List.append_assoc, left, follows]
  | @cut line text quiet missing valid =>
    obtain ⟨fuel, rfl⟩ := Nat.exists_eq_add_one_of_ne_zero (Nat.ne_zero_of_lt enough)
    obtain ⟨rfl, empty⟩ := List.append_eq_nil_iff.mp follows.symm
    have all : reader.pending = line := by
      rw [Reader.pending, split, List.flatten_append, empty, List.append_nil, starts, List.append_nil]
    have read := readLine_cut (how.trans quiet) (all ▸ missing) (all ▸ valid)
    rw [skipFieldsFuel_read read, all, how, quiet]
    have none : Segments.LeftOf bufCapacity [] front := fun _ => ⟨by simp, List.nil_suffix⟩
    by_cases last : (line.length = 0 || blankLine text) = true
    · rw [if_pos last]
      exact ⟨_, rfl, rfl, [], rfl, none⟩
    · -- one more read finds the end
      have some : line.length ≠ 0 := fun zero => last (by rw [zero]; rfl)
      obtain ⟨fuel, rfl⟩ := Nat.exists_eq_add_one_of_ne_zero (show fuel ≠ 0 by omega)
      rw [if_neg last]
      exact ⟨⟨[], [], .none⟩, rfl, rfl, [], rfl, none⟩
  | @field line rest payload text is other fields ih =>
    obtain ⟨fuel, rfl⟩ := Nat.exists_eq_add_one_of_ne_zero (Nat.ne_zero_of_lt enough)
    have some := is.length_pos
    rw [List.length_append] at enough
    rw [List.append_assoc] at starts
    obtain ⟨ahead, later, read, left, taken⟩ := readLine_line is split starts
    rw [skipFieldsFuel_read read, other, Bool.or_false, if_neg (by simpa using some.ne')]
    have how' : ({ reader with ahead, segments := later ++ back } : ProxyReader).failure = failure := how
    have enough' : rest.length < fuel := by omega
    obtain ⟨next, skipped, pending, last, left, more⟩ := ih how' rfl left follows enough'
    exact ⟨next, skipped, pending, last, left, more.trans taken⟩

end Skip

section Connect
variable {targetAuthority : String} {proxy : ProxyConnection} {stream : MitmStream} {head payload inside : Bytes}
  {front back : List Bytes}

theorem connectViaMitmProxy_sound (done : connectViaMitmProxy targetAuthority proxy = .ok stream) :
    stream.request = connectRequest targetAuthority ∧
      ∃ head, Grants proxy.failure head (stream.dropped ++ stream.segments.flatten) ∧
        proxy.segments.flatten = head ++ (stream.dropped ++ stream.segments.flatten) := by
  obtain ⟨_, -, done⟩ := bind_ok done
  obtain ⟨_, -, done⟩ := bind_ok done
  obtain ⟨⟨text, n, between⟩, read, done⟩ := bind_ok done
  dsimp only at done
  split_ifs at done with refused
  have accepted : granted text = true := by simpa using refused
  obtain ⟨next, skipped, done⟩ := bind_ok done
  obtain ⟨_, -, done⟩ := bind_ok done
  cases done
  obtain ⟨head, fields, more⟩ := skipFields_sound (Nat.lt_succ_self _) skipped
  obtain ⟨same, ⟨line, is, -, starts⟩ | ⟨quiet, missing, valid, -, ended⟩⟩ := readLine_cases read
  · rw [same] at fields
    refine ⟨rfl, line ++ head, .head is accepted fields, ?_⟩
    rw [List.append_assoc]
    exact more ▸ starts
  · rw [ended] at more
    have final : next.pending = [] := (List.append_eq_nil_iff.mp more.symm).2
    refine ⟨rfl, ?_⟩
    change ∃ head, Grants _ head next.pending ∧ _ = head ++ next.pending
    rw [final]
    exact ⟨_, .cut quiet missing valid accepted, (List.append_nil _).symm⟩

/-- The calls on the socket succeed. -/
structure ProxyConnection.Works (proxy : ProxyConnection) : Prop where
  connected : proxy.connected = .ok ()
  written : proxy.written = .ok ()
  released : proxy.released = .ok ()

theorem connectViaMitmProxy_ok {text n between next} (works : proxy.Works)
    (read : readLine proxy.reader = .ok (text, n, between)) (accepted : granted text = true)
    (skipped : skipFields between = .ok next) : connectViaMitmProxy targetAuthority proxy =
      .ok ⟨connectRequest targetAuthority, next.ahead, next.segments⟩ := by
  simp only [connectViaMitmProxy, works.connected, works.written, works.released, read, accepted, skipped, bind,
    Except.bind, Bool.not_true, Bool.false_eq_true, if_false]

theorem Grants.connects (grants : Grants proxy.failure head payload) (targetAuthority) (works : proxy.Works)
    (split : proxy.segments = front ++ back) (starts : front.flatten = head ++ inside)
    (follows : payload = inside ++ back.flatten) :
    ∃ stream, connectViaMitmProxy targetAuthority proxy = .ok stream ∧
      stream.dropped ++ stream.segments.flatten = payload ∧
      ∃ later, stream.dropped ++ later.flatten = inside ∧ Segments.LeftOf bufCapacity later front := by
  have split' : proxy.reader.segments = front ++ back := split
  cases grants with
  | @head status rest payload text is accepted fields =>
    rw [List.append_assoc] at starts
    obtain ⟨ahead, later, read, left, taken⟩ := readLine_line is split' starts
    have how : ({ proxy.reader with ahead, segments := later ++ back } : ProxyReader).failure = proxy.failure := rfl
    have enough : rest.length < (ahead ++ (later ++ back).flatten).length + 1 := by
      rw [List.flatten_append, ← List.append_assoc, left]
      simp only [List.length_append]
      omega
    obtain ⟨next, skipped, pending, last, left, more⟩ := fields.skipped how rfl left follows enough
    exact ⟨_, connectViaMitmProxy_ok works read accepted skipped, pending, last, left, more.trans taken⟩
  | @cut _ text quiet missing valid accepted =>
    obtain ⟨rfl, empty⟩ := List.append_eq_nil_iff.mp follows.symm
    have quiet' : proxy.reader.failure = none := quiet
    have all : proxy.reader.pending = head := by
      rw [Reader.pending, split', List.flatten_append, empty, List.append_nil, starts, List.append_nil]
      rfl
    have read := readLine_cut quiet' (all ▸ missing) (all ▸ valid)
    have ended : skipFields ⟨[], [], none⟩ = .ok ⟨[], [], none⟩ := rfl
    rw [quiet'] at read
    exact ⟨_, connectViaMitmProxy_ok works read accepted ended, rfl, [], rfl, fun _ => ⟨by simp, List.nil_suffix⟩⟩

/-- A tunnel is set up exactly if the answer of the proxy starts with a head that grants it, however the answer
is cut into segments. What follows the head is handed on, except for what was read together with the end of the
head: nothing if the head comes in segments of its own, and the rest of the segment in which the head ends if
each segment is one read. -/
theorem connectViaMitmProxy_exact (targetAuthority : String) (proxy : ProxyConnection) :
    (∀ stream, connectViaMitmProxy targetAuthority proxy = .ok stream →
      stream.request = connectRequest targetAuthority ∧
      ∃ head, Grants proxy.failure head (stream.dropped ++ stream.segments.flatten) ∧
        proxy.segments.flatten = head ++ (stream.dropped ++ stream.segments.flatten)) ∧
    (∀ head payload, Grants proxy.failure head payload → proxy.Works → proxy.segments.flatten = head ++ payload →
      ∃ stream, connectViaMitmProxy targetAuthority proxy = .ok stream ∧
        stream.dropped ++ stream.segments.flatten = payload ∧
        (∀ front back, proxy.segments = front ++ back → front.flatten = head →
          stream.dropped = [] ∧ stream.segments.flatten = back.flatten) ∧
        ∀ front segment back, proxy.segments = front ++ [segment] ++ back →
          (∀ other ∈ front ++ [segment], other.length ≤ bufCapacity) → front.flatten.length < head.length →
          head.length ≤ front.flatten.length + segment.length →
          stream.dropped = segment.drop (head.length - front.flatten.length) ∧
            stream.segments.flatten = back.flatten) := by
  refine ⟨fun stream => connectViaMitmProxy_sound, fun head payload grants works whole => ?_⟩
  obtain ⟨stream, done, follows, -⟩ := grants.connects targetAuthority works (List.append_nil _).symm whole
    (List.append_nil _).symm
  have within {front back : List Bytes} {inside : Bytes} (split : proxy.segments = front ++ back)
      (starts : front.flatten = head ++ inside) : payload = inside ++ back.flatten ∧
      ∃ later, stream.dropped ++ later.flatten = inside ∧ Segments.LeftOf bufCapacity later front := by
    have rest : payload = inside ++ back.flatten := by
      rw [split, List.flatten_append, starts, List.append_assoc] at whole
      exact (List.append_cancel_left whole).symm
    obtain ⟨other, done', -, left⟩ := grants.connects targetAuthority works split starts rest
    cases done.symm.trans done'
    exact ⟨rest, left⟩
  refine ⟨stream, done, follows, fun front back split starts => ?_, fun front segment back split fit above below => ?_⟩
  · obtain ⟨rest, later, left, -⟩ := within split (starts.trans (List.append_nil _).symm)
    have none := (List.append_eq_nil_iff.mp left).1
    rw [none, List.nil_append] at follows
    exact ⟨none, follows.trans rest⟩
  · have starts : front.flatten ++ segment = head ++ segment.drop (head.length - front.flatten.length) := by
      rw [split, List.flatten_append, List.flatten_append, List.flatten_singleton] at whole
      have cut := congrArg (List.take head.length) whole
      rw [List.take_append_of_le_length (by rw [List.length_append]; exact below), List.take_left] at cut
      rw [← List.take_append_drop head.length (front.flatten ++ segment), cut, List.drop_append,
        List.drop_eq_nil_of_le above.le, List.nil_append]
    obtain ⟨rest, later, left, taken⟩ := within split (by
      rw [List.flatten_append, List.flatten_singleton]
      exact starts)
    have none : later.flatten = [] := by
      refine taken.taken fit ?_
      have shorter := congrArg List.length left
      rw [List.length_append, List.length_drop] at shorter
      omega
    rw [none, List.append_nil] at left
    rw [left, rest] at follows
    exact ⟨left, List.append_cancel_left follows⟩

/-- An answer in three segments, the last of which comes from beyond the proxy. -/
def grantingProxy : ProxyConnection where
  connected := .ok ()
  written := .ok ()
  segments := [asBytes "HTTP/1.1 200 OK\r\nVia: p\r", asBytes "\n\r\n", [1, 2]]
  failure := none
  released := .ok ()

theorem grantingProxy_connects : ∃ stream, connectViaMitmProxy "example.org:443" grantingProxy = .ok stream ∧
    stream.dropped = [] ∧ stream.segments.flatten = [1, 2] := by
  have status : TextLine (asBytes "HTTP/1.1 200 OK\r\n") "HTTP/1.1 200 OK\r\n".toList :=
    ⟨⟨asBytes "HTTP/1.1 200 OK\r", by decide, by decide⟩, fromUtf8_asBytes _⟩
  have field : TextLine (asBytes "Via: p\r\n") "Via: p\r\n".toList :=
    ⟨⟨asBytes "Via: p\r", by decide, by decide⟩, fromUtf8_asBytes _⟩
  have blank : TextLine (asBytes "\r\n") "\r\n".toList := ⟨⟨asBytes "\r", by decide, by decide⟩, fromUtf8_asBytes _⟩
  obtain ⟨stream, done, -, apart⟩ := (connectViaMitmProxy_exact "example.org:443" grantingProxy).2 _ [1, 2]
    (.head status (by decide) (.field field (by decide) (.blank blank (by decide)))) ⟨rfl, rfl, rfl⟩ (by decide)
  exact ⟨stream, done, apart.1 [asBytes "HTTP/1.1 200 OK\r\nVia: p\r", asBytes "\n\r\n"] [[1, 2]] rfl (by decide)⟩

end Connect

end AnyTls
