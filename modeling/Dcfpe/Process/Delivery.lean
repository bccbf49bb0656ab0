import Dcfpe.Process.Run
import Mathlib.Data.List.TakeWhile

/-!
# How much of the output is delivered

What the child has written is, in this order, with the UI thread, in the read buffer, and in the
pipe (`Holds`).  The loop takes the packets in the order they were queued and leaves at the one that
says the child has exited.  At most one packet of the stdout pipe can be ahead of that one; the
`Read` that follows it finds what is still in the pipe, but its packet is queued behind.  So what
was in the pipe when the child exited is what the host never gets: `Late` carries it along, and
`delivered_iff` says that all is delivered if and only if there was none.
-/

set_option autoImplicit false

namespace Dcfpe

namespace Process

@[simp] theorem stdOutOf_append (xs ys : List ProcessTask) :
    stdOutOf (xs ++ ys) = stdOutOf xs ++ stdOutOf ys := by
  induction xs with
  | nil => rfl
  | cons task xs ih =>
    rcases task with ⟨_ | _, buffer⟩ | _ <;> simp [stdOutOf, ih]

/-- The tasks that were posted to the UI thread. -/
def posts (s : Process) : List ProcessTask := s.ran ++ s.uiTasks

/-- The packet that ends the loop of a child that has exited. -/
def exitPacket (s : Process) : CompletionPacket := .job .exitProcess s.processId

/-- `chunk` is in the read buffer, on its way to the UI thread, and `rest` is still in the pipe. -/
def Holds (s : Process) (chunk rest : List UInt8) : Prop :=
  s.written = stdOutOf s.posts ++ (chunk ++ rest) ∧
    (s.packets.count .stdOut = 0 ∧ chunk ++ rest = [] ∧ (∀ p ∈ s.stdOutRead, p.Waiting) ∨
      s.packets.count .stdOut = 1 ∧ ∃ p, s.stdOutRead = some p ∧ p.Filled chunk rest)

theorem Holds.unread {s : Process} {chunk rest : List UInt8} (h : s.Holds chunk rest) :
    s.unread = rest := by
  obtain ⟨-, ⟨-, hnil, hw⟩ | ⟨-, p, hp, hf⟩⟩ := h
  · rw [(List.append_eq_nil_iff.1 hnil).2, Process.unread]
    rcases hp : s.stdOutRead with _ | p
    · rfl
    · exact (hw p hp).unread
  · rw [Process.unread, hp]
    exact hf.unread

theorem Holds.count_le {s : Process} {chunk rest : List UInt8} (h : s.Holds chunk rest) :
    s.packets.count .stdOut ≤ 1 := by
  obtain ⟨-, ⟨hzero, -⟩ | ⟨hone, -⟩⟩ := h <;> omega

/-! ## Steps that leave stdout alone -/

/-- What no iteration changes, unless it ends the loop. -/
structure Frame (s t : Process) : Prop where
  processId : t.processId = s.processId
  exitReason : t.exitReason = s.exitReason
  looping : t.looping = s.looping
  child : t.child = s.child
  written : t.written = s.written

/-- What most steps do: they queue packets and post tasks that have nothing to do with stdout. -/
structure Quiet (s t : Process) : Prop extends Frame s t where
  stdOutRead : t.stdOutRead = s.stdOutRead
  packets : ∃ more, t.packets = s.packets ++ more ∧ .stdOut ∉ more ∧ s.exitPacket ∉ more
  posts : ∃ more, t.posts = s.posts ++ more ∧ stdOutOf more = [] ∧ .onThreadExit ∉ more

theorem Quiet.holds {s t : Process} (h : Quiet s t) {chunk rest : List UInt8}
    (hs : s.Holds chunk rest) : t.Holds chunk rest := by
  obtain ⟨more, hp, hout, -⟩ := h.packets
  obtain ⟨posted, hposts, hnil, -⟩ := h.posts
  obtain ⟨hw, hpipe⟩ := hs
  refine ⟨by rw [h.written, hposts, stdOutOf_append, hnil, List.append_nil, hw], ?_⟩
  rw [hp, List.count_append, List.count_eq_zero_of_not_mem hout, h.stdOutRead]
  exact hpipe

theorem Quiet.refl (s : Process) : Quiet s s :=
  ⟨⟨rfl, rfl, rfl, rfl, rfl⟩, rfl, ⟨[], by simp⟩, ⟨[], by simp [stdOutOf]⟩⟩

theorem Quiet.trans {s t u : Process} (hst : Quiet s t) (htu : Quiet t u) : Quiet s u where
  processId := htu.processId.trans hst.processId
  exitReason := htu.exitReason.trans hst.exitReason
  looping := htu.looping.trans hst.looping
  child := htu.child.trans hst.child
  written := htu.written.trans hst.written
  stdOutRead := htu.stdOutRead.trans hst.stdOutRead
  packets := by
    obtain ⟨more, hp, hout, hexit⟩ := hst.packets
    obtain ⟨more', hp', hout', hexit'⟩ := htu.packets
    rw [show t.exitPacket = s.exitPacket by simp only [exitPacket, hst.processId]] at hexit'
    exact ⟨more ++ more', by rw [hp', hp, List.append_assoc], by simp [hout, hout'],
      by simp [hexit, hexit']⟩
  posts := by
    obtain ⟨more, hp, hout, hexit⟩ := hst.posts
    obtain ⟨more', hp', hout', hexit'⟩ := htu.posts
    exact ⟨more ++ more', by rw [hp', hp, List.append_assoc], by simp [hout, hout'],
      by simp [hexit, hexit']⟩

theorem quiet_post {s : Process} {packet : CompletionPacket} (hout : packet ≠ .stdOut)
    (hexit : packet ≠ s.exitPacket) : Quiet s (s.post packet) where
  toFrame := ⟨rfl, rfl, rfl, rfl, rfl⟩
  stdOutRead := rfl
  packets := ⟨[packet], rfl, by simpa using hout.symm, by simpa using hexit.symm⟩
  posts := ⟨[], (List.append_nil _).symm, rfl, by simp⟩

theorem quiet_putPio (s : Process) (r : PipeServer × Bool) : Quiet s (s.putPio false r) := by
  obtain ⟨p, _ | _⟩ := r
  · exact ⟨⟨rfl, rfl, rfl, rfl, rfl⟩, rfl, ⟨[], (List.append_nil _).symm, by simp, by simp⟩,
      ⟨[], (List.append_nil _).symm, rfl, by simp⟩⟩
  · exact ⟨⟨rfl, rfl, rfl, rfl, rfl⟩, rfl, ⟨[.stdErr], rfl, by simp, by simp [exitPacket]⟩,
      ⟨[], (List.append_nil _).symm, rfl, by simp⟩⟩

theorem quiet_read (s : Process) : Quiet s (s.read false) := by
  rw [read]
  split
  · exact .refl s
  · exact quiet_putPio s _

theorem quiet_runTask {s t : Process} (h : s.runTask = some t) : Quiet s t := by
  rw [runTask] at h
  split at h
  · cases h
  · next task uiTasks htasks =>
    obtain rfl := Option.some_inj.1 h
    exact ⟨⟨rfl, rfl, rfl, rfl, rfl⟩, rfl, ⟨[], (List.append_nil _).symm, by simp, by simp⟩,
      ⟨[], by simp [Process.posts, htasks], rfl, by simp⟩⟩

/-! ## An iteration of the loop -/

/-- The `Read` that follows a chunk: what is in the pipe goes to the buffer, behind a new packet. -/
theorem read_stdOut {s : Process} {p : PipeServer} {rest : List UInt8}
    (hp : s.stdOutRead = some p) (hfresh : p.Fresh rest) (hcount : s.packets.count .stdOut = 0)
    (hw : s.written = stdOutOf s.posts ++ rest) :
    Frame s (s.read true) ∧ (s.read true).posts = s.posts ∧
      ∃ chunk' rest', rest = chunk' ++ rest' ∧ (s.read true).Holds chunk' rest' ∧
        ((s.read true).packets = s.packets ∨ (s.read true).packets = s.packets ++ [.stdOut]) := by
  have hread : s.read true = s.putPio true p.read := by
    rw [read, show s.pio true = some p from hp]
  rw [hread]
  rcases PipeServer.read_spec hfresh with ⟨hnil, hwait, hno⟩ | ⟨chunk', rest', heq, hfill, hyes⟩
  · have hput : s.putPio true p.read = { s with stdOutRead := some p.read.1 } := by
      simp [putPio, setPio, hno]
    rw [hput]
    subst hnil
    refine ⟨⟨rfl, rfl, rfl, rfl, rfl⟩, rfl, [], [], rfl, ⟨hw, .inl ⟨hcount, rfl, fun p' hp' => ?_⟩⟩,
      .inl rfl⟩
    obtain rfl := Option.some_inj.1 hp'
    exact hwait
  · have hput : s.putPio true p.read =
        { s with stdOutRead := some p.read.1, packets := s.packets ++ [.stdOut] } := by
      simp [putPio, setPio, hyes, completeKey]
    rw [hput]
    subst heq
    refine ⟨⟨rfl, rfl, rfl, rfl, rfl⟩, rfl, chunk', rest', rfl, ⟨hw, .inr ⟨?_, _, rfl, hfill⟩⟩,
      .inr rfl⟩
    simp [hcount]

/-- A packet of the stdout pipe, when there is a chunk in the buffer. -/
theorem handleIo_stdOut {s t : Process} {exit : Option ExitReason} {p : PipeServer}
    {chunk rest : List UInt8} (h : s.handleIo true = (t, exit)) (hp : s.stdOutRead = some p)
    (hf : p.Filled chunk rest) (hcount : s.packets.count .stdOut = 0)
    (hw : s.written = stdOutOf s.posts ++ (chunk ++ rest)) :
    Frame s t ∧ (exit = some .ole ∨
      exit = none ∧ t.posts = s.posts ++ [.onProcessOutput true chunk] ∧
        ∃ chunk' rest', rest = chunk' ++ rest' ∧ t.Holds chunk' rest' ∧
          (t.packets = s.packets ∨ t.packets = s.packets ++ [.stdOut])) := by
  obtain ⟨hok, hfresh, hchunk⟩ := PipeServer.waitForPendingIo_filled hf
  rw [handleIo, show s.pio true = some p from hp] at h
  rcases hwait : p.waitForPendingIo with ⟨q, ok⟩
  rw [hwait] at hok hfresh hchunk
  obtain rfl : ok = true := hok
  simp only [hwait, Bool.not_true, Bool.false_eq_true, if_false, if_true, setPio] at h
  split at h
  · obtain ⟨rfl, rfl⟩ := Prod.mk.inj h
    exact ⟨⟨rfl, rfl, rfl, rfl, rfl⟩, .inl rfl⟩
  · obtain ⟨rfl, rfl⟩ := Prod.mk.inj h
    obtain rfl : q.chunk = chunk := hchunk
    have hout : stdOutOf [.onProcessOutput true q.chunk] ++ rest = q.chunk ++ rest := by
      simp [stdOutOf]
    obtain ⟨hframe, hsame, hrest⟩ := @read_stdOut { s with
      stdOutRead := some q
      outputSize := s.outputSize + q.readSize
      uiTasks := s.uiTasks ++ [.onProcessOutput true q.chunk] } q rest rfl hfresh hcount
      (by rw [posts, ← List.append_assoc, stdOutOf_append, List.append_assoc, hout]; exact hw)
    refine ⟨⟨hframe.1, hframe.2, hframe.3, hframe.4, hframe.5⟩, .inr ⟨rfl, ?_, hrest⟩⟩
    rw [hsame, posts, posts, List.append_assoc]

/-- A packet of the stderr pipe. -/
theorem handleIo_stdErr {s t : Process} {exit : Option ExitReason}
    (h : s.handleIo false = (t, exit)) : Quiet s t ∧ (exit = none ∨ exit = some .ole) := by
  rw [handleIo] at h
  split at h
  · obtain ⟨rfl, rfl⟩ := Prod.mk.inj h
    exact ⟨.refl s, .inl rfl⟩
  · next p hp =>
    rcases hwait : p.waitForPendingIo with ⟨q, ok⟩
    simp only [hwait, Bool.false_eq_true, if_false, setPio] at h
    split at h
    · obtain ⟨rfl, rfl⟩ := Prod.mk.inj h
      exact ⟨⟨⟨rfl, rfl, rfl, rfl, rfl⟩, rfl, ⟨[], by simp⟩,
        ⟨[], by simp [Process.posts, stdOutOf]⟩⟩,
        .inl rfl⟩
    · split at h
      · obtain ⟨rfl, rfl⟩ := Prod.mk.inj h
        exact ⟨⟨⟨rfl, rfl, rfl, rfl, rfl⟩, rfl, ⟨[], by simp⟩,
          ⟨[], by simp [Process.posts, stdOutOf]⟩⟩, .inr rfl⟩
      · obtain ⟨rfl, rfl⟩ := Prod.mk.inj h
        have hpost : Quiet s { s with
            stdErrRead := some q
            uiTasks := s.uiTasks ++ [.onProcessOutput false q.chunk] } :=
          ⟨⟨rfl, rfl, rfl, rfl, rfl⟩, rfl, ⟨[], by simp⟩,
            ⟨[.onProcessOutput false q.chunk], by simp [Process.posts], by simp [stdOutOf],
              by simp⟩⟩
        exact ⟨hpost.trans (quiet_read _), .inl rfl⟩

/-- `Run` is in its loop, with `chunk` in the read buffer and `rest` in the pipe. -/
structure Loops (s : Process) (chunk rest : List UInt8) : Prop where
  looping : s.looping = true
  exitReason : s.exitReason ≠ .exit
  posts : .onThreadExit ∉ s.posts
  holds : s.Holds chunk rest

theorem Loops.quiet {s t : Process} {chunk rest : List UInt8} (h : s.Loops chunk rest)
    (hq : Quiet s t) : t.Loops chunk rest := by
  obtain ⟨more, hposts, -, hexit⟩ := hq.posts
  refine ⟨hq.looping.trans h.looping, by rw [hq.exitReason]; exact h.exitReason, ?_,
    hq.holds h.holds⟩
  rw [hposts, List.mem_append, not_or]
  exact ⟨h.posts, hexit⟩

theorem Loops.pop {s : Process} {chunk rest : List UInt8} (h : s.Loops chunk rest)
    {packet : CompletionPacket} {packets : List CompletionPacket}
    (hp : s.packets = packet :: packets)
    (hout : packet ≠ .stdOut) : Loops { s with packets := packets } chunk rest := by
  obtain ⟨hw, hpipe⟩ := h.holds
  rw [hp, List.count_cons_of_ne hout] at hpipe
  exact ⟨h.looping, h.exitReason, h.posts, hw, hpipe⟩

/-- What an iteration does: it ends the loop, or it moves one chunk on if there is one. -/
theorem Loops.iterate {s t : Process} {chunk rest : List UInt8} (h : s.Loops chunk rest)
    {killed : Int} (hstep : s.iterate killed = some t) :
    ∃ packet packets, s.packets = packet :: packets ∧
      (packet = s.exitPacket ∧ t = leave .exit killed { s with packets := packets } ∨
        (∃ u reason, reason ≠ .exit ∧ t = leave reason killed u) ∨
        packet ≠ s.exitPacket ∧ ∃ chunk' rest' more, t.Loops chunk' rest' ∧
          t.processId = s.processId ∧ t.child = s.child ∧ t.packets = packets ++ more ∧
          s.exitPacket ∉ more ∧
          (packet ≠ .stdOut ∧ .stdOut ∉ more ∧ chunk' = chunk ∧ rest' = rest ∨
            packet = .stdOut ∧ rest = chunk' ++ rest')) := by
  rw [Process.iterate] at hstep
  split at hstep
  · cases hstep
  next packet packets hp =>
  refine ⟨packet, packets, hp, ?_⟩
  -- a packet that has nothing to do with stdout, and does not end the loop
  have hquiet : ∀ u, packet ≠ .stdOut → packet ≠ s.exitPacket →
      Quiet { s with packets := packets } u → packet ≠ s.exitPacket ∧
        ∃ chunk' rest' more, u.Loops chunk' rest' ∧
          u.processId = s.processId ∧ u.child = s.child ∧ u.packets = packets ++ more ∧
          s.exitPacket ∉ more ∧
          (packet ≠ .stdOut ∧ .stdOut ∉ more ∧ chunk' = chunk ∧ rest' = rest ∨
            packet = .stdOut ∧ rest = chunk' ++ rest') := by
    intro u hout hexit hq
    obtain ⟨more, hmore, hout', hexit'⟩ := hq.packets
    exact ⟨hexit, chunk, rest, more, (h.pop hp hout).quiet hq, hq.processId, hq.child, hmore,
      hexit',
      .inl ⟨hout, hout', rfl, rfl⟩⟩
  rcases packet with _ | _ | _ | _ | _ | ⟨message, id⟩
  · -- stdOut
    obtain ⟨hw, ⟨hzero, -⟩ | ⟨hone, p, hout, hf⟩⟩ := h.holds
    · simp [hp] at hzero
    rw [hp, List.count_cons_self] at hone
    rcases hio : handleIo true { s with packets := packets } with ⟨u, exit⟩
    rw [handlePacket, hio] at hstep
    obtain ⟨hframe, rfl | ⟨rfl, hposts, chunk', rest', heq, hholds, hpackets⟩⟩ :=
      handleIo_stdOut hio hout hf (by simpa using hone) hw
    · obtain rfl := Option.some_inj.1 hstep
      exact .inr (.inl ⟨u, .ole, by simp, rfl⟩)
    · obtain rfl := Option.some_inj.1 hstep
      have hloops : u.Loops chunk' rest' := by
        refine ⟨hframe.looping.trans h.looping, by rw [hframe.exitReason]; exact h.exitReason, ?_,
          hholds⟩
        have hno : .onThreadExit ∉ s.posts ++ [.onProcessOutput true chunk] := by
          simpa using h.posts
        rw [hposts]
        exact hno
      refine .inr (.inr ⟨by simp [exitPacket], chunk', rest', ?_⟩)
      rcases hpackets with hpackets | hpackets
      · exact ⟨[], hloops, hframe.processId, hframe.child, by simpa using hpackets, by simp,
          .inr ⟨rfl, heq⟩⟩
      · exact ⟨[.stdOut], hloops, hframe.processId, hframe.child, hpackets, by simp [exitPacket],
          .inr ⟨rfl, heq⟩⟩
  · -- stdErr
    rcases hio : handleIo false { s with packets := packets } with ⟨u, exit⟩
    rw [handlePacket, hio] at hstep
    obtain ⟨hq, rfl | rfl⟩ := handleIo_stdErr hio
    · obtain rfl := Option.some_inj.1 hstep
      exact .inr (.inr (hquiet u (by simp) (by simp [exitPacket]) hq))
    · obtain rfl := Option.some_inj.1 hstep
      exact .inr (.inl ⟨u, .ole, by simp, rfl⟩)
  · obtain rfl := Option.some_inj.1 hstep
    exact .inr (.inr (hquiet _ (by simp) (by simp [exitPacket]) (.refl _)))
  · obtain rfl := Option.some_inj.1 hstep
    exact .inr (.inl ⟨_, .terminated, by simp, rfl⟩)
  · obtain rfl := Option.some_inj.1 hstep
    exact .inr (.inl ⟨_, .tle, by simp, rfl⟩)
  · -- a job message
    rcases hjob : jobExit { s with packets := packets } message id with _ | reason
    · rw [handlePacket, hjob] at hstep
      obtain rfl := Option.some_inj.1 hstep
      refine .inr (.inr (hquiet _ (by simp) (fun hexit => ?_) (.refl _)))
      obtain ⟨rfl, rfl⟩ := CompletionPacket.job.inj hexit
      simp [jobExit] at hjob
    · rw [handlePacket, hjob] at hstep
      obtain rfl := Option.some_inj.1 hstep
      by_cases hexit : reason = .exit
      · left
        subst hexit
        rcases message <;> simp [jobExit] at hjob
        exact ⟨by rw [hjob]; rfl, rfl⟩
      · exact .inr (.inl ⟨_, reason, hexit, rfl⟩)

/-! ## Before and after the exit of the child -/

/-- The child runs. -/
def Going (s : Process) : Prop :=
  s.child = .running ∧ s.exitPacket ∉ s.packets ∧ ∃ chunk rest, s.Loops chunk rest

/-- The child has exited: what is in the pipe comes too late, and so does the chunk of a packet that
is behind the one that ends the loop. -/
def Ending (s : Process) (late : List UInt8) : Prop :=
  ∃ chunk rest before after, s.Loops chunk rest ∧
    s.packets = before ++ s.exitPacket :: after ∧ s.exitPacket ∉ before ∧
    late = (if .stdOut ∈ before then [] else chunk) ++ rest

/-- The loop was left at that packet. -/
def Left (s : Process) (late : List UInt8) : Prop :=
  s.looping = false ∧ s.exitReason = .exit ∧ ∃ before after,
    s.posts = before ++ .onThreadExit :: after ∧ .onThreadExit ∉ before ∧
    s.written = stdOutOf before ++ late

/-- The loop was left for another reason, or will be. -/
def Fails (s : Process) : Prop :=
  s.exitReason ≠ .exit ∧
    (s.looping = true → s.exitPacket ∉ s.packets ∧ ∃ chunk rest, s.Loops chunk rest)

/-- The child does not run, and `late` is what the host does not get of its output. -/
def Late (s : Process) (late : List UInt8) : Prop :=
  s.child ≠ .running ∧ (s.Ending late ∨ s.Left late ∨ s.Fails)

theorem late_leave (s : Process) {reason : ExitReason} (hreason : reason ≠ .exit) (killed : Int)
    (late : List UInt8) : (s.leave reason killed).Late late :=
  ⟨by simp [leave], .inr (.inr ⟨hreason, fun h => absurd h (by simp [leave])⟩)⟩

theorem Quiet.exitPacket {s t : Process} (h : Quiet s t) : t.exitPacket = s.exitPacket := by
  rw [Process.exitPacket, h.processId, Process.exitPacket]

theorem Quiet.not_mem {s t : Process} (h : Quiet s t) (hs : s.exitPacket ∉ s.packets) :
    t.exitPacket ∉ t.packets := by
  obtain ⟨more, hp, -, hexit⟩ := h.packets
  rw [h.exitPacket, hp, List.mem_append, not_or]
  exact ⟨hs, hexit⟩

theorem Going.quiet {s t : Process} (h : s.Going) (hq : Quiet s t) : t.Going := by
  obtain ⟨hchild, hno, chunk, rest, hloops⟩ := h
  exact ⟨hq.child.trans hchild, hq.not_mem hno, chunk, rest, hloops.quiet hq⟩

theorem Late.quiet {s t : Process} {late : List UInt8} (h : s.Late late) (hq : Quiet s t) :
    t.Late late := by
  obtain ⟨hchild, hcases⟩ := h
  refine ⟨by rw [hq.child]; exact hchild, ?_⟩
  rcases hcases with ⟨chunk, rest, before, after, hloops, hp, hno, hlate⟩ |
    ⟨hloop, hreason, before, after, hposts, hno, hw⟩ | ⟨hreason, hloop⟩
  · obtain ⟨more, hmore, -, -⟩ := hq.packets
    refine .inl ⟨chunk, rest, before, after ++ more, hloops.quiet hq, ?_, ?_, hlate⟩
    · rw [hmore, hp, hq.exitPacket, List.append_assoc, List.cons_append]
    · rw [hq.exitPacket]
      exact hno
  · obtain ⟨more, hmore, -, -⟩ := hq.posts
    refine .inr (.inl ⟨hq.looping.trans hloop, hq.exitReason.trans hreason, before,
      after ++ more, ?_,
      hno, hq.written.trans hw⟩)
    rw [hmore, hposts, List.append_assoc, List.cons_append]
  · refine .inr (.inr ⟨by rw [hq.exitReason]; exact hreason, fun hl => ?_⟩)
    obtain ⟨hno, chunk, rest, hloops⟩ := hloop (hq.looping ▸ hl)
    exact ⟨hq.not_mem hno, chunk, rest, hloops.quiet hq⟩

/-- Leaving at the packet of the exit: what has not been posted is late. -/
theorem late_leave_exit {s : Process} {chunk rest : List UInt8} (h : s.Loops chunk rest)
    (packets : List CompletionPacket) (killed : Int) :
    (leave .exit killed { s with packets := packets }).Late (chunk ++ rest) := by
  refine ⟨by simp [leave], .inr (.inl ⟨rfl, rfl, s.posts, [], ?_, h.posts, h.holds.1⟩)⟩
  simp [leave, posts]

/-- The child ends, and its packet is queued. -/
theorem Loops.endChild {s : Process} {chunk rest : List UInt8} (h : s.Loops chunk rest) (code : Int)
    {packet : CompletionPacket} (hout : packet ≠ .stdOut) :
    (post packet { s with child := .exited code }).Loops chunk rest := by
  obtain ⟨hw, hpipe⟩ := h.holds
  have hcount : (s.packets ++ [packet]).count .stdOut = s.packets.count .stdOut := by
    rw [List.count_append, List.count_singleton, beq_false_of_ne hout]
    rfl
  refine ⟨h.looping, h.exitReason, h.posts, hw, ?_⟩
  rw [← hcount] at hpipe
  exact hpipe

theorem Late.iterate {s t : Process} {late : List UInt8} (h : s.Late late)
    (hloop : s.looping = true) {killed : Int} (hstep : s.iterate killed = some t) :
    t.Late late := by
  obtain ⟨hchild, hcases⟩ := h
  rcases hcases with ⟨chunk, rest, before, after, hloops, hp, hno, hlate⟩ | hleft | ⟨-, hfails⟩
  · obtain ⟨packet, packets, hp', ⟨hexit, rfl⟩ | ⟨u, reason, hreason, rfl⟩ |
      ⟨hne, chunk', rest', more, hloops', hid, hchild', hmore, hexit, hcases⟩⟩ :=
        hloops.iterate hstep
    · -- nothing was ahead
      rcases before with _ | ⟨b, before⟩
      · rw [hlate, if_neg List.not_mem_nil]
        exact late_leave_exit hloops packets killed
      · rw [hp', List.cons_append, List.cons.injEq] at hp
        simp [← hp.1, hexit] at hno
    · exact late_leave u hreason killed late
    · rcases before with _ | ⟨b, before⟩
      · rw [hp', List.nil_append, List.cons.injEq] at hp
        exact absurd hp.1 hne
      rw [hp', List.cons_append, List.cons.injEq] at hp
      obtain ⟨rfl, rfl⟩ := hp
      have hexit' : t.exitPacket = s.exitPacket := by rw [exitPacket, hid, exitPacket]
      refine ⟨by rw [hchild']; exact hchild, .inl ⟨chunk', rest', before, after ++ more, hloops',
        ?_, ?_,
        ?_⟩⟩
      · rw [hmore, hexit', List.append_assoc, List.cons_append]
      · rw [hexit']
        exact fun hmem => hno (List.mem_cons_of_mem _ hmem)
      · rw [hlate]
        rcases hcases with ⟨hout, -, rfl, rfl⟩ | ⟨rfl, hrest⟩
        · simp [List.mem_cons, Ne.symm hout]
        · -- the chunk that was ahead has gone, and its packet was the only one
          have hone : CompletionPacket.stdOut ∉ before := by
            have hcount := hloops.holds.count_le
            rw [hp', List.count_cons_self, List.count_append] at hcount
            exact List.count_eq_zero.1 (by omega)
          rw [if_pos (List.mem_cons_self ..), if_neg hone, hrest, List.nil_append]
  · rw [hleft.1] at hloop
    cases hloop
  · obtain ⟨hno, chunk, rest, hloops⟩ := hfails hloop
    obtain ⟨packet, packets, hp', ⟨hexit, rfl⟩ | ⟨u, reason, hreason, rfl⟩ |
      ⟨hne, chunk', rest', more, hloops', hid, hchild', hmore, hexit, -⟩⟩ := hloops.iterate hstep
    · simp [hp', hexit] at hno
    · exact late_leave u hreason killed late
    · refine ⟨by rw [hchild']; exact hchild, .inr (.inr ⟨hloops'.exitReason, fun _ =>
        ⟨?_, chunk', rest', hloops'⟩⟩)⟩
      rw [exitPacket, hid, hmore, List.mem_append, not_or]
      exact ⟨fun hmem => hno (hp' ▸ List.mem_cons_of_mem _ hmem), hexit⟩

theorem going_start (option : ProcessOption) (processId : Nat) :
    (start option processId).Going := by
  have hread : ∀ s : Process, s.child = .running → s.looping = true → s.exitReason ≠ .exit →
      s.posts = [] → s.packets = [] → s.written = [] →
      (∀ p ∈ s.stdOutRead, p.Fresh []) → (s.read true).Going := by
    intro s hchild hloop hreason hposts hpackets hw hfresh
    rcases hp : s.stdOutRead with _ | p
    · have hsame : s.read true = s := by rw [read, show s.pio true = none from hp]
      rw [hsame]
      refine ⟨hchild, by simp [hpackets], [], [], hloop, hreason, by simp [hposts], ?_, .inl ?_⟩
      · simp [hw, hposts, stdOutOf]
      · simp [hpackets, hp]
    · obtain ⟨hframe, hposts', chunk, rest, -, hholds, hpackets'⟩ :=
        read_stdOut hp (hfresh p hp) (by simp [hpackets]) (by simp [hw, hposts, stdOutOf])
      refine ⟨hframe.child.trans hchild, ?_, chunk, rest, hframe.looping.trans hloop,
        by rw [hframe.exitReason]; exact hreason, by simp [hposts', hposts], hholds⟩
      rcases hpackets' with hpackets' | hpackets' <;> simp [hpackets', hpackets, exitPacket]
  refine Going.quiet ?_ (quiet_read _)
  split
  · refine hread _ rfl rfl (by simp) rfl rfl rfl fun p hp => ?_
    obtain rfl := Option.some_inj.1 hp
    exact PipeServer.connected_fresh _
  · exact hread _ rfl rfl (by simp) rfl rfl rfl (by simp)

theorem Going.childWrite {s t : Process} (h : s.Going) {toErr : Bool} {bytes : List UInt8}
    (hstep : s.childWrite toErr bytes = some t) : t.Going := by
  rw [Process.childWrite] at hstep
  simp only at hstep
  split at hstep
  · cases hstep
  next p hp =>
  split at hstep
  · cases hstep
  obtain rfl := Option.some_inj.1 hstep
  generalize (!toErr || s.option.treatErrAsOut) = isStdOut at hp ⊢
  cases isStdOut with
  | false =>
    refine h.quiet (Quiet.trans (quiet_putPio s (p.clientWrite bytes)) ?_)
    exact ⟨⟨rfl, rfl, rfl, rfl, (quiet_putPio s _).written.symm⟩, rfl, ⟨[], by simp⟩,
      ⟨[], by simp [Process.posts, stdOutOf]⟩⟩
  | true =>
    obtain ⟨hchild, hno, chunk, rest, hloop, hreason, hposts, hw, hpipe⟩ := h
    replace hp : s.stdOutRead = some p := hp
    rcases hr : p.clientWrite bytes with ⟨q, packet⟩
    rcases hpipe with ⟨hzero, hnil, hwait⟩ | ⟨hone, p', hp', hf⟩
    · rw [hnil, List.append_nil] at hw
      rcases PipeServer.clientWrite_waiting (hwait p hp) bytes with
        ⟨rfl, hwait', hpacket⟩ | ⟨chunk', rest', rfl, hf', hpacket⟩
      · rw [hr] at hwait' hpacket
        obtain rfl : packet = false := hpacket
        refine ⟨hchild, hno, [], [], hloop, hreason, hposts, ?_, .inl ⟨hzero, rfl, ?_⟩⟩
        · exact congrArg (· ++ []) hw
        · rintro p' hp'
          obtain rfl := Option.some_inj.1 hp'
          exact hwait'
      · rw [hr] at hf' hpacket
        obtain rfl : packet = true := hpacket
        refine ⟨hchild, ?_, chunk', rest', hloop, hreason, hposts, ?_, .inr ⟨?_, q, rfl, hf'⟩⟩
        · have hno' : s.exitPacket ∉ s.packets ++ [CompletionPacket.stdOut] := by
            simpa [exitPacket] using hno
          exact hno'
        · exact congrArg (· ++ (chunk' ++ rest')) hw
        · have hcount : (s.packets ++ [CompletionPacket.stdOut]).count .stdOut = 1 := by
            simp [hzero]
          exact hcount
    · obtain rfl := Option.some_inj.1 (hp'.symm.trans hp)
      obtain ⟨hf', hpacket⟩ := PipeServer.clientWrite_filled hf bytes
      rw [hr] at hf' hpacket
      obtain rfl : packet = false := hpacket
      refine ⟨hchild, hno, chunk, rest ++ bytes, hloop, hreason, hposts, ?_,
        .inr ⟨hone, q, rfl, hf'⟩⟩
      have hw' : s.written ++ bytes = stdOutOf s.posts ++ (chunk ++ (rest ++ bytes)) := by
        rw [hw, List.append_assoc, List.append_assoc]
      exact hw'

theorem Going.iterate {s t : Process} (h : s.Going) {killed : Int}
    (hstep : s.iterate killed = some t) : t.Going ∨ ∀ late, t.Late late := by
  obtain ⟨hchild, hno, chunk, rest, hloops⟩ := h
  obtain ⟨packet, packets, hp, ⟨hexit, rfl⟩ | ⟨u, reason, hreason, rfl⟩ |
    ⟨hne, chunk', rest', more, hloops', hid, hchild', hmore, hexit, -⟩⟩ := hloops.iterate hstep
  · simp [hp, hexit] at hno
  · exact .inr (late_leave u hreason killed)
  · refine .inl ⟨hchild'.trans hchild, ?_, chunk', rest', hloops'⟩
    rw [exitPacket, hid, hmore, List.mem_append, not_or]
    exact ⟨fun hmem => hno (hp ▸ List.mem_cons_of_mem _ hmem), hexit⟩

/-- The steps that are neither the child's nor an iteration. -/
theorem quiet_step {s t : Process} {a : Action} (hstep : step s a = some t)
    (hwrite : ∀ toErr bytes, a ≠ .write toErr bytes) (hexit : ∀ code, a ≠ .exit code)
    (hcrash : ∀ code, a ≠ .crash code) (hiterate : ∀ killed, a ≠ .iterate killed) : Quiet s t := by
  rcases a with ⟨toErr, bytes⟩ | code | code | ⟨message, id⟩ | _ | _ | _ | killed | _ <;>
    simp only [step] at hstep
  · exact absurd rfl (hwrite toErr bytes)
  · exact absurd rfl (hexit code)
  · exact absurd rfl (hcrash code)
  · split at hstep
    · cases hstep
    · next hends =>
      obtain rfl := Option.some_inj.1 hstep
      refine quiet_post (by simp) fun heq => hends ?_
      obtain ⟨rfl, rfl⟩ := CompletionPacket.job.inj heq
      exact ⟨rfl, .inl rfl⟩
  · split at hstep
    · obtain rfl := Option.some_inj.1 hstep
      exact quiet_post (by simp) (by simp [exitPacket])
    · cases hstep
  · split at hstep
    · obtain rfl := Option.some_inj.1 hstep
      have hstop : Quiet s { s with status := .stopped } := ⟨⟨rfl, rfl, rfl, rfl, rfl⟩, rfl,
        ⟨[], by simp⟩, ⟨[], by simp [Process.posts, stdOutOf]⟩⟩
      exact hstop.trans (quiet_post (by simp) (by simp [exitPacket]))
    · cases hstep
  · split at hstep
    · obtain rfl := Option.some_inj.1 hstep
      split
      · exact quiet_post (by simp) (by simp [exitPacket])
      · exact .refl s
    · cases hstep
  · exact absurd rfl (hiterate killed)
  · exact quiet_runTask hstep

theorem late_step {s t : Process} {late : List UInt8} {a : Action} (h : s.Late late)
    (hstep : step s a = some t) : t.Late late := by
  have hchild := h.1
  rcases a with ⟨toErr, bytes⟩ | code | code | ⟨message, id⟩ | _ | _ | _ | killed | _
  · simp [step, hchild] at hstep
  · simp [step, hchild] at hstep
  · simp [step, hchild] at hstep
  · exact h.quiet (quiet_step hstep (by simp) (by simp) (by simp) (by simp))
  · exact h.quiet (quiet_step hstep (by simp) (by simp) (by simp) (by simp))
  · exact h.quiet (quiet_step hstep (by simp) (by simp) (by simp) (by simp))
  · exact h.quiet (quiet_step hstep (by simp) (by simp) (by simp) (by simp))
  · simp only [step] at hstep
    split at hstep
    · next hloop => exact h.iterate hloop hstep
    · cases hstep
  · exact h.quiet (quiet_step hstep (by simp) (by simp) (by simp) (by simp))

/-- A step while the child runs; at its exit, what is in the pipe becomes late. -/
theorem going_step {s t : Process} {a : Action} (h : s.Going) (hstep : step s a = some t) :
    t.Going ∧ ¬ s.LeavesUnread a ∨ ∃ late, t.Late late ∧ (¬ s.LeavesUnread a ↔ late = []) := by
  have hquiet : ∀ hq : Quiet s t, ¬ s.LeavesUnread a → t.Going ∧ ¬ s.LeavesUnread a ∨
      ∃ late, t.Late late ∧ (¬ s.LeavesUnread a ↔ late = []) :=
    fun hq hno => .inl ⟨h.quiet hq, hno⟩
  have hchild := h.1
  rcases a with ⟨toErr, bytes⟩ | code | code | ⟨message, id⟩ | _ | _ | _ | killed | _
  · rw [step, if_pos hchild] at hstep
    exact .inl ⟨h.childWrite hstep, fun h => h⟩
  · rw [step, if_pos hchild] at hstep
    obtain rfl := Option.some_inj.1 hstep
    obtain ⟨-, hno, chunk, rest, hloops⟩ := h
    have hlate : (if .stdOut ∈ s.packets then [] else chunk) ++ rest = rest := by
      split
      · rfl
      · next hout =>
        obtain ⟨-, ⟨-, hnil, -⟩ | ⟨hone, -⟩⟩ := hloops.holds
        · rw [(List.append_eq_nil_iff.1 hnil).1, List.nil_append]
        · rw [List.count_eq_zero_of_not_mem hout] at hone
          cases hone
    refine .inr ⟨rest, ⟨by simp [post], .inl ⟨chunk, rest, s.packets, [],
      hloops.endChild code (by simp), rfl, hno, hlate.symm⟩⟩, ?_⟩
    simp [LeavesUnread, hchild, hloops.holds.unread]
  · rw [step, if_pos hchild] at hstep
    obtain rfl := Option.some_inj.1 hstep
    obtain ⟨-, hno, chunk, rest, hloops⟩ := h
    refine .inr ⟨[], ⟨by simp [post], .inr (.inr ⟨hloops.exitReason, fun _ => ⟨?_, chunk, rest,
      hloops.endChild code (by simp)⟩⟩)⟩, by simp [LeavesUnread]⟩
    have hno' : s.exitPacket ∉ s.packets ++ [.job .abnormalExitProcess s.processId] := by
      simpa [exitPacket] using hno
    exact hno'
  · exact hquiet (quiet_step hstep (by simp) (by simp) (by simp) (by simp)) fun h => h
  · exact hquiet (quiet_step hstep (by simp) (by simp) (by simp) (by simp)) fun h => h
  · exact hquiet (quiet_step hstep (by simp) (by simp) (by simp) (by simp)) fun h => h
  · exact hquiet (quiet_step hstep (by simp) (by simp) (by simp) (by simp)) fun h => h
  · simp only [step] at hstep
    split at hstep
    · rcases h.iterate hstep with hgoing | hlate
      · exact .inl ⟨hgoing, fun h => h⟩
      · exact .inr ⟨[], hlate [], by simp [LeavesUnread]⟩
    · cases hstep
  · exact hquiet (quiet_step hstep (by simp) (by simp) (by simp) (by simp)) fun h => h

theorem meets_of_late {s : Process} {late : List UInt8} (h : s.Late late) (as : List Action) :
    step.Meets (fun s a => ¬ s.LeavesUnread a) s as := by
  refine Machine.meets_of_invariant (P := fun s => s.Late late) (fun s a t => late_step) ?_ h as
  rintro s (_ | code | _) hs <;> simp only [LeavesUnread, not_false_eq_true]
  exact fun hun => hs.1 hun.1

theorem going_run {as : List Action} {s t : Process} (h : s.Going)
    (hrun : step.run s as = some t) :
    t.Going ∨ ∃ late, t.Late late ∧
      (step.Meets (fun s a => ¬ s.LeavesUnread a) s as ↔ late = []) := by
  induction as generalizing s with
  | nil =>
    rw [Machine.run_nil, Option.some_inj] at hrun
    exact .inl (hrun ▸ h)
  | cons a as ih =>
    obtain ⟨u, hu, hrun⟩ := Machine.run_cons.1 hrun
    have hmeets : step.Meets (fun s a => ¬ s.LeavesUnread a) s (a :: as) ↔
        ¬ s.LeavesUnread a ∧ step.Meets (fun s a => ¬ s.LeavesUnread a) u as := by
      simp only [Machine.Meets, hu, Option.some_inj, forall_eq']
    rw [hmeets]
    rcases going_step h hu with ⟨hgoing, hno⟩ | ⟨late, hlate, hiff⟩
    · rw [and_iff_right hno]
      exact ih hgoing hrun
    · refine .inr ⟨late, Machine.run_invariant (P := fun s => s.Late late)
        (fun s a t => late_step) hlate hrun, ?_⟩
      rw [and_iff_left (meets_of_late hlate as), hiff]

/-- The tasks that ran before `OnThreadExit` are those that were posted before it. -/
theorem takeWhile_ran {s : Process} (hran : .onThreadExit ∈ s.ran) {before after : List ProcessTask}
    (hposts : s.posts = before ++ .onThreadExit :: after) (hno : .onThreadExit ∉ before) :
    s.ran.takeWhile (· ≠ .onThreadExit) = before := by
  have hall : ∀ task ∈ before, (task ≠ .onThreadExit : Bool) = true := by
    intro task htask
    simpa using fun heq : task = .onThreadExit => hno (heq ▸ htask)
  have hbefore : s.posts.takeWhile (· ≠ .onThreadExit) = before := by
    rw [hposts, List.takeWhile_append_of_pos hall]
    simp
  rw [posts, List.takeWhile_append, if_neg] at hbefore
  · exact hbefore
  · intro hlen
    have hall' := List.takeWhile_eq_self_iff.1 ((List.takeWhile_prefix _).eq_of_length hlen)
    simpa using hall' _ hran

/-- **When all of the output is delivered.**  In a run that ends with a normal exit, what the host
has been given when `OnThreadExit` runs is all that the child has written to its stdout if and only
if nothing of it was left in the pipe when the child exited. -/
theorem delivered_iff (option : ProcessOption) (processId : Nat) {as : List Action} {s : Process}
    (hrun : step.run (start option processId) as = some s) (hexit : s.ExitedNormally) :
    s.delivered = s.written ↔
      step.Meets (fun s a => ¬ s.LeavesUnread a) (start option processId) as := by
  obtain ⟨hran, hreason⟩ := hexit
  have hposts : .onThreadExit ∈ s.posts := List.mem_append_left _ hran
  rcases going_run (going_start option processId) hrun with
    ⟨-, -, chunk, rest, hloops⟩ | ⟨late, hlate, hmeets⟩
  · exact absurd hposts hloops.posts
  rw [hmeets]
  rcases hlate.2 with ⟨chunk, rest, -, -, hloops, -⟩ | ⟨-, -, before, after, heq, hno, hw⟩ | ⟨hf, -⟩
  · exact absurd hposts hloops.posts
  · rw [delivered, takeWhile_ran hran heq hno, hw]
    simp
  · exact absurd hreason hf

def deviceOption : ProcessOption :=
  { redirectStdInout := true, treatErrAsOut := false, outputBufferSize := 1 }

/-- `Run` takes the packet of "A" before the child writes "B", and that of "B" before it exits. -/
def promptChunks : List Action :=
  [.write false [65], .iterate 0, .write false [66], .iterate 0, .exit 0, .iterate 0, .runTask,
    .runTask, .runTask]

theorem delivered_promptChunks :
    step.Meets (fun s a => ¬ s.LeavesUnread a) (start deviceOption 1) promptChunks := by
  have hsome : (step.run (start deviceOption 1) promptChunks).map (fun s =>
      (s.ran, s.exitReason, s.written)) =
      some ([.onProcessOutput true [65], .onProcessOutput true [66], .onThreadExit], .exit,
        [65, 66]) := by
    decide
  obtain ⟨s, hrun, hs⟩ := Option.map_eq_some_iff.1 hsome
  simp only [Prod.mk.injEq] at hs
  obtain ⟨hran, hreason, hwritten⟩ := hs
  refine (delivered_iff deviceOption 1 hrun ⟨by simp [hran], hreason⟩).1 ?_
  rw [delivered, hran, hwritten]
  rfl

/-- The child writes "A" and "B" before `Run` takes the packet of "A". -/
def lateChunk : List Action :=
  [.write false [65], .write false [66], .exit 0, .iterate 0, .iterate 0, .runTask, .runTask]

/-- Then "B" is lost. -/
theorem tail_lost :
    ∃ s, step.run (start deviceOption 1) lateChunk = some s ∧ s.ExitedNormally ∧ s.exitCode = 0 ∧
      s.written = [65, 66] ∧ s.delivered = [65] := by
  have hsome : (step.run (start deviceOption 1) lateChunk).map (fun s =>
      (s.ran, s.exitReason, s.exitCode, s.written)) =
      some ([.onProcessOutput true [65], .onThreadExit], .exit, 0, [65, 66]) := by
    decide
  obtain ⟨s, hrun, hs⟩ := Option.map_eq_some_iff.1 hsome
  simp only [Prod.mk.injEq] at hs
  obtain ⟨hran, hreason, hcode, hwritten⟩ := hs
  exact ⟨s, hrun, ⟨by simp [hran], hreason⟩, hcode, hwritten, by rw [delivered, hran]; rfl⟩

end Process

end Dcfpe
