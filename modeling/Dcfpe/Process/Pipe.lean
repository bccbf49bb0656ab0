import Mathlib.Data.List.Basic

/-!
# The pipe a child writes to

A `PipeServer` reads one end of a named pipe, with at most one overlapped `ReadFile` at a time; the
child holds the other end.  `NamedPipe` is what Windows keeps for that pipe: the bytes written and
not read, and the `ReadFile` that waits for some.  A `ReadFile` that finds bytes is done at once,
another one when the next bytes are written, and either way a packet goes to the completion port.

So a server that has been set to read is in one of two states: `Waiting` for bytes, with none in the
pipe and no packet under way, or `Filled`, with a chunk in its buffer, a packet that says so, and
whatever was written since still in the pipe.
-/

set_option autoImplicit false

namespace Dcfpe

inductive PipeState where
  | unknown
  | idle
  | connecting
  | reading
  | writing
  | error
  deriving DecidableEq, Repr

inductive PipeOpenMode where
  | inbound
  | outbound
  | duplex
  deriving DecidableEq, Repr

/-- The pipe and its overlapped structure.  The write end stays open in the process that reads, so
the pipe never breaks. -/
structure NamedPipe where
  /-- Written and not read. -/
  data : List UInt8 := []
  /-- A `ReadFile` waits for data. -/
  waiting : Bool := false
  /-- The event of the overlapped structure. -/
  signaled : Bool := false
  /-- The bytes the last `ReadFile` has transferred. -/
  transferred : Nat := 0
  deriving DecidableEq, Repr

structure PipeServer where
  openMode : PipeOpenMode := .inbound
  state : PipeState
  ioPending : Bool := false
  readBuffer : List UInt8
  readSize : Nat := 0
  /-- `pipe_handle_`, which `Close` sets to NULL. -/
  handle : Option NamedPipe
  deriving DecidableEq, Repr

namespace PipeServer

def kDefaultIOBufferSize : Int := 4096

/-- An inbound server whose client is connected, as `CreateClientAndConnect` leaves it. -/
def connected (bufferSize : Int) : PipeServer :=
  let bufferSize := if bufferSize ≤ 0 then kDefaultIOBufferSize else bufferSize
  { state := .reading
    readBuffer := List.replicate (bufferSize + 64).toNat 0
    handle := some {} }

def close (p : PipeServer) : PipeServer :=
  { p with state := .unknown, ioPending := false, readSize := 0, handle := none }

/-- Windows moves what is in the pipe and fits into the buffer. -/
def fill (pipe : NamedPipe) (p : PipeServer) : PipeServer :=
  let chunk := pipe.data.take p.readBuffer.length
  { p with
    readBuffer := chunk ++ p.readBuffer.drop chunk.length
    handle := some
      { data := pipe.data.drop chunk.length
        waiting := false
        signaled := true
        transferred := chunk.length } }

inductive IOResult where
  | done
  | ioPending
  | failed
  deriving DecidableEq, Repr

def readFile (p : PipeServer) : PipeServer × IOResult :=
  match p.handle with
  | none => (p, .failed)
  | some pipe =>
    if pipe.data.isEmpty then
      ({ p with
          readSize := 0
          handle := some { pipe with waiting := true, signaled := false } }, .ioPending)
    else
      ({ p.fill pipe with readSize := (pipe.data.take p.readBuffer.length).length }, .done)

/-- `Read`, with whether its `ReadFile` was done at once: then there is a packet. -/
def read (p : PipeServer) : PipeServer × Bool :=
  if p.state = .connecting then (p, false)
  else if p.ioPending then (p, false)
  else if p.openMode = .outbound then (p, false)
  else
    let (p, result) := p.readFile
    let p := { p with state := .reading }
    match result with
    | .done => (if p.readSize ≠ 0 then { p with ioPending := false } else p.close, true)
    | .ioPending => ({ p with ioPending := true }, false)
    | .failed => (p.close, false)

/-- The client writes, with whether that has done a `ReadFile` that was waiting. -/
def clientWrite (bytes : List UInt8) (p : PipeServer) : PipeServer × Bool :=
  match p.handle with
  | none => (p, false)
  | some pipe =>
    let pipe := { pipe with data := pipe.data ++ bytes }
    if pipe.waiting && !pipe.data.isEmpty then (p.fill pipe, true)
    else ({ p with handle := some pipe }, false)

/-- `WaitForPendingIO(0)`. -/
def waitForPendingIo (p : PipeServer) : PipeServer × Bool :=
  if p.state = .connecting ∨ p.state = .writing ∨ p.state = .reading then
    if !p.ioPending then (p, true)
    else
      match p.handle with
      | none => (p.close, false)
      | some pipe =>
        if !pipe.signaled then (p, false)
        else
          let p := { p with ioPending := false }
          match p.state with
          | .reading => ({ p with readSize := pipe.transferred }, true)
          | .writing => (p, true)
          | _ =>
            ({ p with
                state := if p.openMode = .outbound then .writing else .reading
                readSize := 0 }, true)
  else (p, false)

/-- The chunk in the buffer. -/
def chunk (p : PipeServer) : List UInt8 := p.readBuffer.take p.readSize

/-- The bytes that were written and are still in the pipe. -/
def unread (p : PipeServer) : List UInt8 := (p.handle.map NamedPipe.data).getD []

/-! ## What the server waits for -/

/-- The server is set to read from `pipe`. -/
structure Reads (p : PipeServer) (pipe : NamedPipe) : Prop where
  openMode : p.openMode = .inbound
  state : p.state = .reading
  room : 0 < p.readBuffer.length
  handle : p.handle = some pipe

/-- No `ReadFile` has been issued for what is in the pipe. -/
def Fresh (p : PipeServer) (data : List UInt8) : Prop :=
  ∃ pipe, p.Reads pipe ∧ p.ioPending = false ∧ pipe.waiting = false ∧ pipe.data = data

/-- A `ReadFile` waits, and the pipe is empty. -/
def Waiting (p : PipeServer) : Prop :=
  ∃ pipe, p.Reads pipe ∧ p.ioPending = true ∧ pipe.waiting = true ∧ pipe.data = []

/-- A `ReadFile` is done: `chunk` is in the buffer, and `rest` has been written since. -/
def Filled (p : PipeServer) (chunk rest : List UInt8) : Prop :=
  chunk ≠ [] ∧ ∃ pipe, p.Reads pipe ∧ pipe.waiting = false ∧ pipe.data = rest ∧
    if p.ioPending then pipe.signaled = true ∧ p.readBuffer.take pipe.transferred = chunk
    else p.chunk = chunk

theorem Fresh.unread {p : PipeServer} {data : List UInt8} (h : p.Fresh data) :
    p.unread = data := by
  obtain ⟨pipe, hp, -, -, rfl⟩ := h
  simp [PipeServer.unread, hp.handle]

theorem Waiting.unread {p : PipeServer} (h : p.Waiting) : p.unread = [] := by
  obtain ⟨pipe, hp, -, -, hd⟩ := h
  simp [PipeServer.unread, hp.handle, hd]

theorem Filled.unread {p : PipeServer} {chunk rest : List UInt8} (h : p.Filled chunk rest) :
    p.unread = rest := by
  obtain ⟨-, pipe, hp, -, rfl, -⟩ := h
  simp [PipeServer.unread, hp.handle]

theorem connected_fresh (bufferSize : Int) : (connected bufferSize).Fresh [] := by
  refine ⟨{}, ⟨rfl, rfl, ?_, rfl⟩, rfl, rfl, rfl⟩
  rw [connected, List.length_replicate]
  have hdefault : kDefaultIOBufferSize = 4096 := rfl
  split <;> omega

/-- The chunk is what the buffer starts with. -/
theorem fill_readBuffer (p : PipeServer) (pipe : NamedPipe) :
    (p.fill pipe).readBuffer.take (pipe.data.take p.readBuffer.length).length =
      pipe.data.take p.readBuffer.length :=
  List.take_left' rfl

theorem fill_reads {p : PipeServer} {pipe' : NamedPipe} (h : p.Reads pipe') (pipe : NamedPipe) :
    ∃ pipe'', (p.fill pipe).Reads pipe'' ∧ pipe''.waiting = false ∧ pipe''.signaled = true ∧
      pipe''.data = pipe.data.drop p.readBuffer.length ∧
      pipe''.transferred = (pipe.data.take p.readBuffer.length).length := by
  refine ⟨_, ⟨h.openMode, h.state, ?_, rfl⟩, rfl, rfl, ?_, rfl⟩
  · have hroom := h.room
    simp only [fill, List.length_append, List.length_drop, List.length_take]
    omega
  · simp only [List.length_take]
    rcases Nat.le_total p.readBuffer.length pipe.data.length with hle | hle
    · rw [Nat.min_eq_left hle]
    · rw [Nat.min_eq_right hle, List.drop_length, List.drop_eq_nil_of_le hle]

theorem take_ne_nil {p : PipeServer} {pipe : NamedPipe} (h : p.Reads pipe) {data : List UInt8}
    (hd : data ≠ []) : data.take p.readBuffer.length ≠ [] := by
  have hroom := h.room
  rw [Ne, List.take_eq_nil_iff, not_or]
  exact ⟨by omega, hd⟩

/-- `Read` waits if there is nothing to read, and fills the buffer otherwise. -/
theorem read_spec {p : PipeServer} {data : List UInt8} (h : p.Fresh data) :
    (data = [] ∧ p.read.1.Waiting ∧ p.read.2 = false) ∨
      ∃ chunk rest, data = chunk ++ rest ∧ p.read.1.Filled chunk rest ∧ p.read.2 = true := by
  obtain ⟨pipe, hp, hio, hw, rfl⟩ := h
  rcases hd : pipe.data with _ | ⟨b, bs⟩
  · left
    have hread : p.read = ({ p with
        state := .reading
        ioPending := true
        readSize := 0
        handle := some { pipe with waiting := true, signaled := false } }, false) := by
      simp [read, readFile, hp.state, hp.openMode, hp.handle, hio, hd]
    rw [hread]
    exact ⟨rfl, ⟨_, ⟨hp.openMode, rfl, hp.room, rfl⟩, rfl, rfl, hd⟩, rfl⟩
  · right
    have hne : pipe.data ≠ [] := by simp [hd]
    have htake := take_ne_nil hp hne
    have hread : p.read = ({ p.fill pipe with
        state := .reading
        ioPending := false
        readSize := (pipe.data.take p.readBuffer.length).length }, true) := by
      have hsize : (pipe.data.take p.readBuffer.length).length ≠ 0 := by simpa using htake
      simp only [read, readFile, hp.state, hp.openMode, hp.handle, hio, List.isEmpty_iff, hne,
        hsize,
        reduceCtorEq, if_false, if_true, Bool.false_eq_true, ne_eq, not_false_eq_true]
    obtain ⟨pipe', hp', hw', -, hdata, -⟩ := fill_reads hp pipe
    refine ⟨pipe.data.take p.readBuffer.length, pipe.data.drop p.readBuffer.length,
      by rw [List.take_append_drop, hd], ?_, by rw [hread]⟩
    rw [hread]
    exact ⟨htake, pipe', ⟨hp'.openMode, rfl, hp'.room, hp'.handle⟩, hw', hdata,
      fill_readBuffer p pipe⟩

/-- A write goes to the `ReadFile` that waits. -/
theorem clientWrite_waiting {p : PipeServer} (h : p.Waiting) (bytes : List UInt8) :
    (bytes = [] ∧ (p.clientWrite bytes).1.Waiting ∧ (p.clientWrite bytes).2 = false) ∨
      ∃ chunk rest, bytes = chunk ++ rest ∧ (p.clientWrite bytes).1.Filled chunk rest ∧
        (p.clientWrite bytes).2 = true := by
  obtain ⟨pipe, hp, hio, hw, hd⟩ := h
  rcases hb : bytes with _ | ⟨b, bs⟩
  · left
    have hwrite : p.clientWrite [] =
        ({ p with handle := some { pipe with data := [] } }, false) := by
      simp [clientWrite, hp.handle, hd]
    rw [hwrite]
    exact ⟨rfl, ⟨_, ⟨hp.openMode, hp.state, hp.room, rfl⟩, hio, hw, rfl⟩, rfl⟩
  · right
    rw [← hb]
    have hne : bytes ≠ [] := by simp [hb]
    have hwrite : p.clientWrite bytes = (p.fill { pipe with data := bytes }, true) := by
      simp [clientWrite, hp.handle, hd, hw, hne]
    obtain ⟨pipe', hp', hw', hs', hdata, htr⟩ := fill_reads hp { pipe with data := bytes }
    refine ⟨bytes.take p.readBuffer.length, bytes.drop p.readBuffer.length,
      (List.take_append_drop _ _).symm, ?_, by rw [hwrite]⟩
    rw [hwrite]
    refine ⟨take_ne_nil hp hne, pipe', hp', hw', hdata, ?_⟩
    rw [if_pos (show (p.fill { pipe with data := bytes }).ioPending = true from hio), htr]
    exact ⟨hs', fill_readBuffer p { pipe with data := bytes }⟩

/-- While no `ReadFile` waits, what is written stays in the pipe. -/
theorem clientWrite_filled {p : PipeServer} {chunk rest : List UInt8} (h : p.Filled chunk rest)
    (bytes : List UInt8) :
    (p.clientWrite bytes).1.Filled chunk (rest ++ bytes) ∧ (p.clientWrite bytes).2 = false := by
  obtain ⟨hne, pipe, hp, hw, rfl, hc⟩ := h
  have hwrite : p.clientWrite bytes =
      ({ p with handle := some { pipe with data := pipe.data ++ bytes } }, false) := by
    simp [clientWrite, hp.handle, hw]
  rw [hwrite]
  exact ⟨⟨hne, _, ⟨hp.openMode, hp.state, hp.room, rfl⟩, hw, rfl, hc⟩, rfl⟩

/-- When its packet is taken, a chunk is in the buffer. -/
theorem waitForPendingIo_filled {p : PipeServer} {chunk rest : List UInt8}
    (h : p.Filled chunk rest) :
    p.waitForPendingIo.2 = true ∧ p.waitForPendingIo.1.Fresh rest ∧
      p.waitForPendingIo.1.chunk = chunk := by
  obtain ⟨-, pipe, hp, hw, hd, hc⟩ := h
  rcases hio : p.ioPending with _ | _
  · have hwait : p.waitForPendingIo = (p, true) := by simp [waitForPendingIo, hp.state, hio]
    rw [if_neg (by simp [hio])] at hc
    rw [hwait]
    exact ⟨rfl, ⟨pipe, hp, hio, hw, hd⟩, hc⟩
  · rw [if_pos hio] at hc
    have hwait : p.waitForPendingIo =
        ({ p with ioPending := false, readSize := pipe.transferred }, true) := by
      simp [waitForPendingIo, hp.state, hio, hp.handle, hc.1]
    rw [hwait]
    exact ⟨rfl, ⟨pipe, ⟨hp.openMode, hp.state, hp.room, hp.handle⟩, rfl, hw, hd⟩, hc.2⟩

end PipeServer

end Dcfpe
