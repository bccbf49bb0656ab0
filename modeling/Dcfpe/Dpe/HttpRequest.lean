import Mathlib.Data.List.Basic
import Dcfpe.Dpe.HttpServer

/-!
# What `ParseRequest` makes of a request

A `Message` is a request to be sent, its texts free of the delimiters of their places.  It is
rendered with lines that end in a line feed, or in a carriage return and a line feed, as clients
send them.  `ParseRequest` gives back a message with the first kind of lines; it takes a carriage
return for a part of the line, so that of the second kind it never does.
-/

set_option autoImplicit false

namespace Dcfpe.Http

open Std Pieces

/-- No character of `delims` is in `s`. -/
def Free (delims s : Text) : Prop := ∀ c ∈ s, c ∉ delims

instance (delims s : Text) : Decidable (Free delims s) :=
  List.decidableBAll (fun c => c ∉ delims) s

theorem Free.append {delims s t : Text} (hs : Free delims s) (ht : Free delims t) :
    Free delims (s ++ t) := by
  intro c hc
  rcases List.mem_append.1 hc with hc | hc
  · exact hs c hc
  · exact ht c hc

theorem Free.cons {delims s : Text} {c : Char} (hc : c ∉ delims) (hs : Free delims s) :
    Free delims (c :: s) := by
  intro d hd
  rcases List.mem_cons.1 hd with rfl | hd
  · exact hc
  · exact hs d hd

theorem Free.intercalate {delims sep : Text} {ws : List Text} (hsep : Free delims sep)
    (hws : ∀ w ∈ ws, Free delims w) : Free delims (sep.intercalate ws) := by
  induction ws with
  | nil => simp [Free]
  | cons w ws ih =>
    have hw := hws w List.mem_cons_self
    have hrest := ih fun v hv => hws v (List.mem_cons_of_mem w hv)
    rcases ws with _ | ⟨v, ws⟩
    · rwa [List.intercalate_singleton]
    · rw [List.intercalate_cons_cons]
      exact (hw.append hsep).append hrest

theorem Free.mono {delims delims' s : Text} (h : Free delims s) (hsub : delims' ⊆ delims) :
    Free delims' s := fun c hc hd => h c hc (hsub hd)

theorem Free.not_contains {delims s : Text} (h : Free delims s) :
    ∀ c ∈ s, delims.contains c = false := fun c hc => by simpa using h c hc

theorem Free.ne {c : Char} {s : Text} (h : Free [c] s) : ∀ d ∈ s, decide (d ≠ c) = true :=
  fun d hd => by simpa using h d hd

theorem takeWhile_free {c : Char} {s : Text} (h : Free [c] s) (rest : Text) :
    (s ++ c :: rest).takeWhile (· ≠ c) = s := by
  rw [List.takeWhile_append_of_pos h.ne, List.takeWhile_cons_of_neg (by simp), List.append_nil]

theorem dropWhile_free_append {c : Char} {s : Text} (h : Free [c] s) (rest : Text) :
    (s ++ c :: rest).dropWhile (· ≠ c) = c :: rest := by
  rw [List.dropWhile_append_of_pos h.ne, List.dropWhile_cons_of_neg (by simp)]

theorem dropWhile_free {c : Char} {s : Text} (h : Free [c] s) : s.dropWhile (· ≠ c) = [] := by
  have hall : (s ++ []).dropWhile (· ≠ c) = ([] : Text).dropWhile (· ≠ c) :=
    List.dropWhile_append_of_pos h.ne
  rwa [List.append_nil] at hall

theorem dropWhile_blank {s : Text} (h : s.head? ≠ some ' ') : s.dropWhile (· = ' ') = s := by
  rcases s with _ | ⟨c, s⟩
  · rfl
  · rw [List.dropWhile_cons_of_neg (by simpa using h)]

structure Message where
  method : Text
  path : Text
  parameters : List (Text × Text)
  version : Text
  headers : List (Text × Text)
  method_free : Free [' ', '\r', '\n'] method
  path_free : Free ['?', ' ', '\r', '\n'] path
  parameters_free : ∀ kv ∈ parameters,
    Free ['=', '&', ' ', '\r', '\n'] kv.1 ∧ Free ['&', ' ', '\r', '\n'] kv.2
  version_free : Free [' ', '\r', '\n'] version
  /-- The blanks after the colon belong to the line. -/
  headers_free : ∀ kv ∈ headers,
    Free [':', '\r', '\n'] kv.1 ∧ Free ['\r', '\n'] kv.2 ∧ kv.2.head? ≠ some ' '

namespace Message

variable (m : Message)

/-! ## The rendering -/

def parameterText (kv : Text × Text) : Text := kv.1 ++ '=' :: kv.2

def query : Text := ['&'].intercalate (m.parameters.map parameterText)

def fullPath : Text := if m.parameters = [] then m.path else m.path ++ '?' :: m.query

/-- The text of a header, up to the end of its line. -/
def headerText (cr : Text) (kv : Text × Text) : Text := kv.1 ++ ':' :: ' ' :: kv.2 ++ cr

def requestLine (cr : Text) : Text :=
  m.method ++ ' ' :: (m.fullPath ++ ' ' :: (m.version ++ cr))

/-- The lines before the empty one, each without its line feed; `cr` is what stands before that. -/
def lines (cr : Text) : List Text := m.requestLine cr :: m.headers.map (headerText cr)

def render (cr : Text) : Text := (m.lines cr).flatMap (· ++ ['\n']) ++ (cr ++ ['\n'])

/-- The request the message is. -/
def request : HttpRequest where
  method := m.method
  fullPath := m.fullPath
  path := m.path
  version := m.version
  headers := m.headers.foldl (fun headers kv => headers.insert kv.1 kv.2) ∅
  parameters := m.parameters.foldl (fun parameters kv => parameters.insert kv.1 kv.2) ∅

/-! ## The tokens of the rendering -/

variable {m}

theorem parameterText_free {kv : Text × Text} (hkv : kv ∈ m.parameters) :
    parameterText kv ≠ [] ∧ Free ['&', ' ', '\r', '\n'] (parameterText kv) := by
  obtain ⟨hkey, hvalue⟩ := m.parameters_free kv hkv
  exact ⟨by simp [parameterText], (hkey.mono (by decide)).append (hvalue.cons (by decide))⟩

theorem fullPath_free : Free [' ', '\r', '\n'] m.fullPath := by
  have hpath : Free [' ', '\r', '\n'] m.path := m.path_free.mono (by decide)
  have hquery : Free [' ', '\r', '\n'] m.query := by
    refine Free.intercalate (by decide) fun w hw => ?_
    obtain ⟨kv, hkv, rfl⟩ := List.mem_map.1 hw
    exact (parameterText_free hkv).2.mono (by decide)
  rw [fullPath]
  split
  · exact hpath
  · exact hpath.append (hquery.cons (by decide))

theorem requestLine_free {cr : Text} (hcr : Free ['\n'] cr) : Free ['\n'] (m.requestLine cr) := by
  have hmethod : Free ['\n'] m.method := m.method_free.mono (by decide)
  have hfullPath : Free ['\n'] m.fullPath := fullPath_free.mono (by decide)
  have hversion : Free ['\n'] m.version := m.version_free.mono (by decide)
  exact hmethod.append
    ((hfullPath.append ((hversion.append hcr).cons (by decide))).cons (by decide))

theorem headerText_free {cr : Text} (hcr : Free ['\n'] cr) {kv : Text × Text}
    (hkv : kv ∈ m.headers) : Free ['\n'] (headerText cr kv) := by
  obtain ⟨hkey, hvalue, -⟩ := m.headers_free kv hkv
  have hkey : Free ['\n'] kv.1 := hkey.mono (by decide)
  have hvalue : Free ['\n'] kv.2 := hvalue.mono (by decide)
  exact (hkey.append ((hvalue.cons (by decide)).cons (by decide))).append hcr

theorem free_lines {cr : Text} (hcr : Free ['\n'] cr) :
    ∀ line ∈ m.lines cr, line ≠ [] ∧ ∀ c ∈ line, ['\n'].contains c = false := by
  intro line hline
  rcases List.mem_cons.1 hline with rfl | hline
  · exact ⟨by simp [requestLine], (requestLine_free hcr).not_contains⟩
  · obtain ⟨kv, hkv, rfl⟩ := List.mem_map.1 hline
    exact ⟨by simp [headerText], (headerText_free hcr hkv).not_contains⟩

theorem tokenize_render {cr : Text} (hcr : Free ['\n'] cr) :
    tokenize (m.render cr) ['\n'] = m.lines cr ++ tokenize (cr ++ ['\n']) ['\n'] :=
  pieces_lines (free_lines hcr) (by decide) _

/-! ## What is made of each line -/

theorem parsePath_fullPath :
    parsePath m.fullPath =
      (m.path, m.parameters.foldl (fun parameters kv => parameters.insert kv.1 kv.2) ∅) := by
  have hpath : Free ['?'] m.path := m.path_free.mono (by decide)
  by_cases hnil : m.parameters = []
  · rw [parsePath, fullPath, if_pos hnil, dropWhile_free hpath, hnil, List.foldl_nil]
  · have htokens : tokenize m.query ['&'] = m.parameters.map parameterText := by
      refine pieces_intercalate (fun w hw => ?_) (by decide)
      obtain ⟨kv, hkv, rfl⟩ := List.mem_map.1 hw
      have hfree := parameterText_free hkv
      exact ⟨hfree.1, (hfree.2.mono (by decide) : Free ['&'] _).not_contains⟩
    rw [parsePath, fullPath, if_neg hnil, dropWhile_free_append hpath]
    dsimp only
    rw [takeWhile_free hpath, htokens, List.foldl_map]
    congr 1
    refine List.foldl_ext _ _ _ fun parameters kv hkv => ?_
    have hkey : Free ['='] kv.1 := (m.parameters_free kv hkv).1.mono (by decide)
    rw [addParameter, parameterText, dropWhile_free_append hkey, takeWhile_free hkey]

theorem parseVerb_requestLine (hmethod : m.method ≠ []) (hfullPath : m.fullPath ≠ []) {cr : Text}
    (hversion : m.version ++ cr ≠ []) (hcr : Free [' '] cr) :
    parseVerb (m.requestLine cr) =
      { m.request with version := m.version ++ cr, headers := ∅ } := by
  have hmethod' : Free [' '] m.method := m.method_free.mono (by decide)
  have hfullPath' : Free [' '] m.fullPath := fullPath_free.mono (by decide)
  have hversion' : Free [' '] (m.version ++ cr) := (m.version_free.mono (by decide)).append hcr
  have htokens : tokenize (m.requestLine cr) [' '] = [m.method, m.fullPath, m.version ++ cr] := by
    rw [tokenize, requestLine, pieces_word hmethod hmethod'.not_contains (by decide),
      pieces_word hfullPath hfullPath'.not_contains (by decide),
      pieces_eq_single hversion hversion'.not_contains]
  rw [parseVerb, htokens]
  simp only [parsePath_fullPath]
  rfl

theorem addHeader_headerText {cr : Text} (hcr : cr.head? ≠ some ' ') {kv : Text × Text}
    (hkv : kv ∈ m.headers) (headers : ExtTreeMap Text Text) :
    addHeader headers (headerText cr kv) = headers.insert kv.1 (kv.2 ++ cr) := by
  obtain ⟨hkey, -, hblank⟩ := m.headers_free kv hkv
  have hkey : Free [':'] kv.1 := hkey.mono (by decide)
  rw [addHeader, headerText, List.append_assoc, List.cons_append, dropWhile_free_append hkey,
    takeWhile_free hkey]
  dsimp only
  rw [List.cons_append, List.dropWhile_cons_of_pos (by simp), dropWhile_blank]
  rcases hvalue : kv.2 with _ | ⟨c, value⟩
  · exact hcr
  · rwa [hvalue] at hblank

/-! ## What is made of the message -/

/-- What is read of the lines up to the empty one. -/
theorem parseRequest_render {cr : Text} (hlf : Free ['\n'] cr) :
    parseRequest (m.render cr) =
      let request := parseVerb (m.requestLine cr)
      { request with
        headers := (m.headers.map (headerText cr) ++ tokenize (cr ++ ['\n']) ['\n']).foldl addHeader
          request.headers } := by
  rw [parseRequest, tokenize_render hlf, lines, List.cons_append]

theorem foldl_addHeader {cr : Text} (hcr : cr.head? ≠ some ' ') (headers : ExtTreeMap Text Text) :
    (m.headers.map (headerText cr)).foldl addHeader headers =
      m.headers.foldl (fun headers kv => headers.insert kv.1 (kv.2 ++ cr)) headers := by
  rw [List.foldl_map]
  exact List.foldl_ext _ _ _ fun headers kv hkv => addHeader_headerText hcr hkv headers

/-- With lines that end in a line feed the message is given back. -/
theorem parseRequest_render_lf (hmethod : m.method ≠ []) (hfullPath : m.fullPath ≠ [])
    (hversion : m.version ≠ []) : parseRequest (m.render []) = m.request := by
  have htokens : tokenize ([] ++ ['\n']) ['\n'] = [] := by decide
  have hblank : ([] : Text).head? ≠ some ' ' := by decide
  rw [parseRequest_render (by decide), htokens, List.append_nil,
    parseVerb_requestLine hmethod hfullPath (by simpa using hversion) (by decide)]
  simp only [foldl_addHeader hblank, List.append_nil]
  rfl

/-- With lines that end in a carriage return and a line feed, the carriage return is taken for the
end of the version and of each value, and for one header more. -/
theorem parseRequest_render_crlf (hmethod : m.method ≠ []) (hfullPath : m.fullPath ≠ []) :
    parseRequest (m.render ['\r']) =
      { m.request with
        version := m.version ++ ['\r']
        headers := ExtTreeMap.insert
          (m.headers.foldl (fun headers kv => headers.insert kv.1 (kv.2 ++ ['\r'])) ∅)
          ['\r'] [] } := by
  have htokens : tokenize (['\r'] ++ ['\n']) ['\n'] = [['\r']] := by decide
  have hblank : (['\r'] : Text).head? ≠ some ' ' := by decide
  rw [parseRequest_render (by decide), htokens,
    parseVerb_requestLine hmethod hfullPath (by simp) (by decide)]
  simp only [List.foldl_append, foldl_addHeader hblank]
  rfl

/-- A carriage return is no key of the headers of a message, but one of those that are read. -/
theorem request_headers_cr : m.request.headers[['\r']]? = none := by
  have hkeys : ∀ l : List (Text × Text), (∀ kv ∈ l, kv.1 ≠ ['\r']) →
      ∀ headers : ExtTreeMap Text Text, headers[['\r']]? = none →
        (l.foldl (fun headers kv => headers.insert kv.1 kv.2) headers)[['\r']]? = none := by
    intro l
    induction l with
    | nil => exact fun _ _ h => h
    | cons kv l ih =>
      intro hl headers h
      refine ih (fun kv' hkv' => hl kv' (List.mem_cons_of_mem kv hkv')) _ ?_
      rw [ExtTreeMap.getElem?_insert, if_neg, h]
      simpa using hl kv List.mem_cons_self
  refine hkeys m.headers (fun kv hkv hkey => ?_) ∅ (by simp)
  have hfree := (m.headers_free kv hkv).1
  rw [hkey] at hfree
  exact absurd hfree (by decide)

theorem parseRequest_headers_cr : (parseRequest (m.render ['\r'])).headers[['\r']]? = some [] := by
  have htokens : tokenize (['\r'] ++ ['\n']) ['\n'] = [['\r']] := by decide
  rw [parseRequest_render (by decide), htokens]
  simp only [List.foldl_append]
  exact ExtTreeMap.getElem?_insert_self

/-- No message that is sent with the line ends of HTTP is given back. -/
theorem parseRequest_render_ne (m : Message) : parseRequest (m.render ['\r']) ≠ m.request := by
  intro h
  have hcr := m.request_headers_cr
  rw [← h, m.parseRequest_headers_cr] at hcr
  cases hcr

end Message

theorem free_get : Free [' ', '\r', '\n'] "GET".toList := by decide

theorem free_status : Free ['?', ' ', '\r', '\n'] "/status".toList := by decide

theorem free_version : Free [' ', '\r', '\n'] "HTTP/1.1".toList := by decide

/-- A poll of the status page. -/
def statusPoll : Message where
  method := "GET".toList
  path := "/status".toList
  parameters := [("startTaskId".toList, "7".toList)]
  version := "HTTP/1.1".toList
  headers := [("Host".toList, "localhost".toList)]
  method_free := free_get
  path_free := free_status
  parameters_free := by decide
  version_free := free_version
  headers_free := by decide

theorem parseRequest_statusPoll : ¬ ∀ m : Message, parseRequest (m.render ['\r']) = m.request := by
  intro h
  have hversion := congrArg HttpRequest.version (h statusPoll)
  exact absurd hversion (by decide)

end Dcfpe.Http
