import Dcfpe.Lib.Pieces
import Std.Data.ExtTreeMap.Lemmas

/-!
# The HTTP server of the master

`HttpServer::Run` takes one connection after the other: it reads a request with `recv`, has
`ParseRequest` take it apart, posts it to the UI thread for the handler, and sends what comes back.

The functions are those of `http_server.cc`.  A `std::string` is the list of its bytes, each written
as the character with that code, and a `std::map` an `ExtTreeMap`.  What the handler answers, and
when the server is told to quit, are parameters.
-/

set_option autoImplicit false

namespace Dcfpe.Http

open Std Pieces

abbrev Text := List Char

structure HttpRequest where
  method : Text := []
  fullPath : Text := []
  path : Text := []
  version : Text := []
  headers : ExtTreeMap Text Text := ∅
  parameters : ExtTreeMap Text Text := ∅

def tokenize (s delims : Text) : List Text := pieces (delims.contains ·) s

/-! ## ParseRequest -/

/-- One round of the loop of `ParsePath`. -/
def addParameter (parameters : ExtTreeMap Text Text) (token : Text) : ExtTreeMap Text Text :=
  match token.dropWhile (· ≠ '=') with
  | [] => parameters.insert token []
  | _ :: value => parameters.insert (token.takeWhile (· ≠ '=')) value

def parsePath (fullPath : Text) : Text × ExtTreeMap Text Text :=
  match fullPath.dropWhile (· ≠ '?') with
  | [] => (fullPath, ∅)
  | _ :: query =>
    (fullPath.takeWhile (· ≠ '?'), (tokenize query ['&']).foldl addParameter ∅)

/-- What `ParseRequest` makes of the first line. -/
def parseVerb (line : Text) : HttpRequest :=
  match tokenize line [' '] with
  | [] => {}
  | [method] => { method := method }
  | method :: fullPath :: rest =>
    let (path, parameters) := parsePath fullPath
    { method := method, fullPath := fullPath, path := path, parameters := parameters,
      version := rest.headD [] }

/-- One round of the loop over the other lines. -/
def addHeader (headers : ExtTreeMap Text Text) (header : Text) : ExtTreeMap Text Text :=
  match header.dropWhile (· ≠ ':') with
  | [] => headers.insert header []
  | _ :: value => headers.insert (header.takeWhile (· ≠ ':')) (value.dropWhile (· = ' '))

def parseRequest (requestData : Text) : HttpRequest :=
  match tokenize requestData ['\n'] with
  | [] => {}
  | line :: lines =>
    let request := parseVerb line
    { request with headers := lines.foldl addHeader request.headers }

/-! ## Run -/

structure HttpResponse where
  headers : ExtTreeMap Text Text := ∅
  body : Text := []

/-- A `char*` read as a string ends at its first NUL. -/
def cString (s : Text) : Text := s.takeWhile (· ≠ Char.ofNat 0)

theorem cString_eq_self {s : Text} (h : Char.ofNat 0 ∉ s) : cString s = s := by
  induction s with
  | nil => rfl
  | cons c s ih =>
    rw [List.mem_cons, not_or] at h
    rw [cString, List.takeWhile_cons_of_pos (by simpa using Ne.symm h.1)]
    exact congrArg (c :: ·) (ih h.2)

def responseToString (response : HttpResponse) : Text :=
  "HTTP/1.0 200 OK\n".toList ++
    ("Content-Length: ".toList ++ (Nat.repr response.body.length).toList ++ ['\n']) ++
    response.headers.toList.flatMap
      (fun kv => cString kv.1 ++ [':', ' '] ++ cString kv.2 ++ ['\n']) ++
    ['\n'] ++ response.body

/-- The size of `buff`. -/
def buffLen : Nat := 1048576

/-- What a round of the loop does with one connection. -/
structure Served where
  /-- The indices of `buff` that are written. -/
  writes : List Nat := []
  /-- The text that goes to `ParseRequest`. -/
  reqData : Option Text := none
  /-- The request that goes to the handler. -/
  request : Option HttpRequest := none
  /-- What is sent back; without it the loop ends. -/
  data : Option Text := none

/-- `HandleRequestOnThread`.  `answer` is what the handler has made of a request when the wait for
it ends; there is none when the wait runs out or the server is told to quit. -/
def handleRequestOnThread (answer : HttpRequest → Option HttpResponse) (reqData : Text) :
    Option HttpRequest × Option Text :=
  let request := parseRequest reqData
  if request.path = "quit".toList then (none, none)
  else (some request, (answer request).map responseToString)

/-- The round of a connection on which the calls of `recv` would return `chunks`, one after the
other, and then 0: the code makes one call. -/
def serve (answer : HttpRequest → Option HttpResponse) (chunks : List Text) : Served :=
  let buff := chunks.headD []
  let len := buff.length
  let reqData := cString buff
  let (request, data) := handleRequestOnThread answer reqData
  -- `recv` writes `len` bytes, and then `buff[len] = 0`
  { writes := List.range len ++ [len], reqData := some reqData, request := request, data := data }

structure Connection where
  /-- `quit_flag_` when the connection is accepted. -/
  quit : Bool := false
  /-- What `recv` would return; `none` is a `SOCKET_ERROR`. -/
  chunks : Option (List Text)
  answer : HttpRequest → Option HttpResponse

/-- The loop of `Run` over the connections it accepts. -/
def run : List Connection → List Served
  | [] => []
  | c :: cs =>
    if c.quit then []
    else
      match c.chunks with
      | none => {} :: run cs
      | some chunks =>
        let served := serve c.answer chunks
        served :: if served.data.isSome then run cs else []

/-- What a round shows is what `serve` makes of its own connection, whatever came before it. -/
theorem run_getElem? {cs : List Connection} {k : Nat} {s : Served} (h : (run cs)[k]? = some s) :
    ∃ c, cs[k]? = some c ∧ s = (c.chunks.map (serve c.answer)).getD {} := by
  induction cs generalizing k with
  | nil => simp [run] at h
  | cons c cs ih =>
    rw [run] at h
    split at h
    · simp at h
    · split at h
      · next hchunks =>
        rcases k with _ | k
        · rw [List.getElem?_cons_zero, Option.some_inj] at h
          exact ⟨c, rfl, by rw [hchunks, ← h]; rfl⟩
        · exact ih h
      · next chunks hchunks =>
        rcases k with _ | k
        · rw [List.getElem?_cons_zero, Option.some_inj] at h
          exact ⟨c, rfl, by rw [hchunks, ← h]; rfl⟩
        · rw [List.getElem?_cons_succ] at h
          split at h
          · exact ih h
          · simp at h

/-! ## What is read of a request -/

/-- A request without NULs on its way: the results of the calls of `recv` that would return it. -/
structure Delivery where
  chunks : List Text
  received : ∀ chunk ∈ chunks, chunk ≠ [] ∧ chunk.length ≤ buffLen
  noNul : ∀ chunk ∈ chunks, Char.ofNat 0 ∉ chunk

namespace Delivery

variable (d : Delivery)

def request : Text := d.chunks.flatten

/-- What the first call of `recv` returns. -/
def first : Text := d.chunks.headD []

theorem first_eq_request_iff : d.first = d.request ↔ d.chunks.length ≤ 1 := by
  obtain ⟨chunks, received, noNul⟩ := d
  rcases chunks with _ | ⟨chunk, _ | ⟨chunk', chunks⟩⟩
  · simp [first, request]
  · simp [first, request]
  · have hne := (received chunk' (by simp)).1
    simp [first, request, hne]

theorem noNul_first : Char.ofNat 0 ∉ d.first := by
  rcases hchunks : d.chunks with _ | ⟨chunk, chunks⟩
  · simp [first, hchunks]
  · rw [first, hchunks, List.headD_cons]
    exact d.noNul chunk (by simp [hchunks])

end Delivery

/-- Every index written in `buff` lies inside it. -/
def Served.InBounds (s : Served) : Prop := ∀ i ∈ s.writes, i < buffLen

theorem inBounds_serve (answer : HttpRequest → Option HttpResponse) (d : Delivery) :
    (serve answer d.chunks).InBounds ↔ d.first.length < buffLen := by
  simp only [Served.InBounds, serve, List.mem_append, List.mem_range, List.mem_singleton]
  constructor
  · intro h
    exact h _ (Or.inr rfl)
  · rintro h i (hi | rfl)
    · exact Nat.lt_trans hi h
    · exact h

theorem serve_reqData (answer : HttpRequest → Option HttpResponse) (d : Delivery) :
    (serve answer d.chunks).reqData = some d.first := by
  rw [← cString_eq_self d.noNul_first]
  rfl

theorem serve_request (answer : HttpRequest → Option HttpResponse) (d : Delivery) :
    (serve answer d.chunks).request =
      if (parseRequest d.first).path = "quit".toList then none
      else some (parseRequest d.first) := by
  have hfirst : cString (d.chunks.headD []) = d.first := cString_eq_self d.noNul_first
  simp only [serve, handleRequestOnThread, hfirst]
  split
  · rfl
  · rfl

/-- The handler gets what the whole request says, and nothing is written outside `buff`, exactly
when the first `recv` brings fewer bytes than `buff` has, these read like the whole request, and the
request is not the one that ends the server.  They are the whole request when it comes in one piece.
-/
theorem run_whole_iff {cs : List Connection} {k : Nat} {c : Connection} {s : Served}
    (hs : (run cs)[k]? = some s) (hc : cs[k]? = some c) (d : Delivery)
    (hd : c.chunks = some d.chunks) :
    (s.request = some (parseRequest d.request) ∧ s.InBounds ↔
      parseRequest d.first = parseRequest d.request ∧
        (parseRequest d.request).path ≠ "quit".toList ∧ d.first.length < buffLen) ∧
    (s.reqData = some d.request ∧ s.InBounds ↔
      d.chunks.length ≤ 1 ∧ d.request.length < buffLen) := by
  obtain ⟨c', hc', rfl⟩ := run_getElem? hs
  obtain rfl : c = c' := Option.some.inj (hc.symm.trans hc')
  rw [hd, Option.map_some, Option.getD_some, inBounds_serve, serve_request, serve_reqData,
    ← d.first_eq_request_iff, Option.some_inj]
  constructor
  · constructor
    · rintro ⟨hreq, hlt⟩
      split at hreq
      · cases hreq
      · next hquit =>
        rw [Option.some_inj] at hreq
        exact ⟨hreq, hreq ▸ hquit, hlt⟩
    · rintro ⟨hreq, hquit, hlt⟩
      rw [if_neg (hreq ▸ hquit), hreq]
      exact ⟨rfl, hlt⟩
  · constructor
    · rintro ⟨hreq, hlt⟩
      exact ⟨hreq, hreq ▸ hlt⟩
    · rintro ⟨hreq, hlt⟩
      exact ⟨hreq, hreq ▸ hlt⟩

/-- A request of one piece. -/
def onePiece : Delivery where
  chunks := ["GET / HTTP/1.0\r\n\r\n".toList]
  received := by decide
  noNul := by decide

/-- It is accepted and answered with an empty page. -/
def Delivery.accepted (d : Delivery) : Connection where
  chunks := some d.chunks
  answer := fun _ => some {}

theorem run_whole_iff_onePiece :
    ∃ s, (run [onePiece.accepted])[0]? = some s ∧
      s.request = some (parseRequest onePiece.request) ∧ s.InBounds := by
  refine ⟨_, rfl, ?_⟩
  refine (@run_whole_iff [onePiece.accepted] 0 onePiece.accepted _ rfl rfl onePiece rfl).1.2
    ⟨rfl, ?_, ?_⟩
  · decide
  · decide

/-- A status poll cut in the middle of its parameter. -/
def cutPoll : Delivery where
  chunks := ["GET /status?startTaskId=1".toList, "2 HTTP/1.0\r\n\r\n".toList]
  received := by decide
  noNul := by decide

theorem run_cutPoll :
    ¬ ∀ s, (run [cutPoll.accepted])[0]? = some s →
      s.request = some (parseRequest cutPoll.request) ∧ s.InBounds := by
  intro h
  have hpath := congrArg (Option.map HttpRequest.fullPath) (h _ rfl).1
  exact absurd hpath (by decide)

end Dcfpe.Http
