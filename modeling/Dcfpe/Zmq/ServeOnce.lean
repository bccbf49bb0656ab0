import Dcfpe.Zmq.Server
import Mathlib.Data.List.Nodup

/-!
# Serving every request once

A request that has been received is in one of three places until it is answered: in the hands of the
network thread, in the data of a PROCESSING context, or in the batch of the UI thread.  `Inv` says
that a context has at most one such request, that this is the one its socket owes a reply for, and
that all the others were handled and answered once.

What breaks it is the last section of `ProcessRequestImpl`.  It sets every PROCESSING context back
to LISTENING, also one that was marked after the batch had been collected: its request is forgotten,
and its socket never receives again.  `served_once_iff` says that nothing else can go wrong.
-/

set_option autoImplicit false

namespace Dcfpe

/-- The requests in the hands of the network thread, with their sockets. -/
@[simp] def NetThread.sockets : NetThread → List (Nat × Message)
  | .marking sockets => sockets
  | _ => []

/-- The sockets the network thread is about to receive or to mark. -/
@[simp] def NetThread.busy : NetThread → List Nat
  | .polling items => items
  | .marking sockets => sockets.map Prod.fst
  | _ => []

@[simp] def UIThread.todo : UIThread → List ServerContext
  | .idle => []
  | .handling _ todo => todo

/-- The sockets of the batch of the UI thread. -/
@[simp] def UIThread.batch : UIThread → List Nat
  | .idle => []
  | .handling served todo => (served ++ todo).map ServerContext.zmqSocket

theorem NetThread.mem_busy {net : NetThread} {k : Nat} {m : Message} (h : (k, m) ∈ net.sockets) :
    k ∈ net.busy := by
  rcases net with _ | items | sockets | active
  · cases h
  · cases h
  · exact List.mem_map.2 ⟨_, h, rfl⟩
  · cases h

theorem UIThread.mem_batch {ui : UIThread} {c : ServerContext} (h : c ∈ ui.todo) :
    c.zmqSocket ∈ ui.batch := by
  rcases ui with _ | ⟨served, todo⟩
  · cases h
  · exact List.mem_map_of_mem (List.mem_append_right _ h)

/-- The requests of socket `k`: those that are `out` are unanswered and owed, at most one at a time,
and each of the others was handled and answered once. -/
structure Tracked (w : Wire) (handled : List Nat) (k : Nat) (out : Nat → Prop) : Prop where
  current : ∀ n, out n → w.arrived[n]? = some k ∧ handled.count n = 0 ∧
    w.answered.count n = 0 ∧ w.owed k = some n
  served : ∀ n, w.arrived[n]? = some k → out n ∨ handled.count n = 1 ∧ w.answered.count n = 1

/-- What happens to other sockets does not matter. -/
theorem Tracked.congr {w w' : Wire} {handled handled' : List Nat} {k : Nat} {out out' : Nat → Prop}
    (h : Tracked w handled k out)
    (ha : ∀ n : Nat, w'.arrived[n]? = some k ↔ w.arrived[n]? = some k)
    (hh : ∀ n : Nat, w.arrived[n]? = some k → handled'.count n = handled.count n)
    (hr : ∀ n : Nat, w.arrived[n]? = some k → w'.answered.count n = w.answered.count n)
    (ho : w'.owed k = w.owed k) (hout : ∀ n, out' n ↔ out n) : Tracked w' handled' k out' := by
  refine ⟨fun n hn => ?_, fun n hn => ?_⟩
  · obtain ⟨h1, h2, h3, h4⟩ := h.current n ((hout n).1 hn)
    exact ⟨(ha n).2 h1, by rw [hh n h1, h2], by rw [hr n h1, h3], by rw [ho, h4]⟩
  · have hn' := (ha n).1 hn
    rw [hout n, hh n hn', hr n hn']
    exact h.served n hn'

/-- At most one request is out. -/
theorem Tracked.eq {w : Wire} {handled : List Nat} {k : Nat} {out : Nat → Prop}
    (h : Tracked w handled k out) {n num : Nat} (hn : out n) (hnum : out num) : n = num :=
  Option.some.inj ((h.current n hn).2.2.2.symm.trans (h.current num hnum).2.2.2)

/-- The request that is out is handled and answered, and no other comes in its place. -/
theorem Tracked.answer {w w' : Wire} {handled handled' : List Nat} {k : Nat} {out out' : Nat → Prop}
    (h : Tracked w handled k out) {num : Nat} (hnum : out num) (ha : w'.arrived = w.arrived)
    (hh : ∀ n : Nat, w.arrived[n]? = some k → handled'.count n = handled.count n + [num].count n)
    (hr : ∀ n : Nat, w.arrived[n]? = some k →
      w'.answered.count n = w.answered.count n + [num].count n)
    (hout : ∀ n, ¬ out' n) : Tracked w' handled' k out' := by
  refine ⟨fun n hn => absurd hn (hout n), fun n hn => .inr ?_⟩
  rw [ha] at hn
  rw [hh n hn, hr n hn]
  by_cases heq : n = num
  · obtain ⟨-, hc, ha0, -⟩ := h.current num hnum
    rw [heq, hc, ha0]
    simp
  · obtain ⟨hc, ha1⟩ := (h.served n hn).resolve_left fun hn' => heq (h.eq hn' hnum)
    rw [hc, ha1]
    simp [Ne.symm heq]

namespace ZMQServer

/-- Request `n` is in one of the places where the request of a context can be. -/
def Outstanding (s : ZMQServer) (it : ServerContext) (n : Nat) : Prop :=
  (∃ m, (it.zmqSocket, m) ∈ s.net.sockets ∧ m.num = n) ∨
  (it.state = .processing ∧ ∃ m, it.data = some m ∧ m.num = n) ∨
  ∃ c ∈ s.ui.todo, c.zmqSocket = it.zmqSocket ∧ ∃ m, c.data = some m ∧ m.num = n

/-- What the threads and the contexts have to do with each other. -/
structure Inv (s : ZMQServer) : Prop where
  nodup : (s.context.map ServerContext.zmqSocket).Nodup
  /-- Every socket that is mentioned has been made. -/
  made : (∀ it ∈ s.context, it.zmqSocket < s.nextSocket) ∧
    (∀ k ∈ s.wire.arrived, k < s.nextSocket) ∧ (∀ k ∈ s.net.busy, k < s.nextSocket) ∧
    ∀ k ∈ s.ui.batch, k < s.nextSocket
  netNodup : s.net.busy.Nodup
  uiNodup : s.ui.batch.Nodup
  /-- Numbers go with the sockets they came from. -/
  numbers : (∀ k n, s.wire.owed k = some n → s.wire.arrived[n]? = some k) ∧
    (∀ k m, (k, m) ∈ s.net.sockets → s.wire.arrived[m.num]? = some k) ∧
    ∀ c ∈ s.ui.todo, ∃ m, c.data = some m ∧ s.wire.arrived[m.num]? = some c.zmqSocket
  past : ∀ n, n ∈ s.handled ∨ n ∈ s.wire.answered → n < s.wire.arrived.length
  /-- The network thread receives and marks listening contexts only. -/
  net : ∀ it ∈ s.context, it.zmqSocket ∈ s.net.busy → it.state = .listening
  /-- The contexts in the batch stay PROCESSING, their data moved into it. -/
  ui : ∀ it ∈ s.context, it.zmqSocket ∈ s.ui.batch → it.state = .processing ∧ it.data = none
  /-- A PROCESSING context that is not in the batch will be collected. -/
  waiting : ∀ it ∈ s.context, it.state = .processing → it.zmqSocket ∉ s.ui.batch →
    it.data.isSome ∧ (0 < s.tasks ∨ ∃ active, s.net = .posting active ∧ 0 < active)
  tracked : ∀ it ∈ s.context, Tracked s.wire s.handled it.zmqSocket (s.Outstanding it)

/-- No section gives a context another socket. -/
theorem map_zmqSocket {f : ServerContext → ServerContext}
    (hf : ∀ it, (f it).zmqSocket = it.zmqSocket) (context : List ServerContext) :
    (context.map f).map ServerContext.zmqSocket = context.map ServerContext.zmqSocket := by
  rw [List.map_map]
  exact List.map_congr_left fun it _ => hf it

theorem inv_init : Inv {} := by
  refine ⟨List.nodup_nil, ?_, List.nodup_nil, List.nodup_nil, ?_, ?_, ?_, ?_, ?_, ?_⟩ <;>
    simp [Wire.answered]

/-! ## Starting and stopping servers -/

theorem inv_startServer {s : ZMQServer} (h : s.Inv) (handler : Nat) (address : String) :
    (s.startServer handler address).Inv := by
  rw [startServer]
  split
  · exact h
  · obtain ⟨hc, ha, hn, hu⟩ := h.made
    have hnew : ∀ it : ServerContext,
        it ∈ s.context ++ [{ zmqSocket := s.nextSocket, handler := handler, address := address }] →
        it ∈ s.context ∨
          it = { zmqSocket := s.nextSocket, handler := handler, address := address } := by
      intro it hit
      rwa [List.mem_append, List.mem_singleton] at hit
    refine ⟨?_, ⟨fun it hit => ?_, fun k hk => Nat.lt_succ_of_lt (ha k hk),
      fun k hk => Nat.lt_succ_of_lt (hn k hk), fun k hk => Nat.lt_succ_of_lt (hu k hk)⟩,
      h.netNodup, h.uiNodup, h.numbers, h.past, fun it hit hb => ?_, fun it hit hb => ?_,
      fun it hit hp hb => ?_, fun it hit => ?_⟩
    · rw [List.map_append, List.nodup_append]
      refine ⟨h.nodup, List.nodup_singleton _, ?_⟩
      rintro k hk _ hk' rfl
      obtain ⟨it, hit, rfl⟩ := List.mem_map.1 hk
      rw [List.map_singleton, List.mem_singleton] at hk'
      exact absurd hk' (Nat.ne_of_lt (hc it hit))
    · rcases hnew it hit with hit | rfl
      · exact Nat.lt_succ_of_lt (hc it hit)
      · exact Nat.lt_succ_self _
    · rcases hnew it hit with hit | rfl
      · exact h.net it hit hb
      · exact absurd (hn _ hb) (Nat.lt_irrefl _)
    · rcases hnew it hit with hit | rfl
      · exact h.ui it hit hb
      · exact absurd (hu _ hb) (Nat.lt_irrefl _)
    · rcases hnew it hit with hit | rfl
      · exact h.waiting it hit hp hb
      · cases hp
    · rcases hnew it hit with hit | rfl
      · exact h.tracked it hit
      · refine ⟨fun n hout => ?_, fun n hk => ?_⟩
        · rcases hout with ⟨m, hm, -⟩ | ⟨hp, -⟩ | ⟨c, hc', hk, -⟩
          · exact absurd (hn _ (NetThread.mem_busy hm)) (Nat.lt_irrefl _)
          · cases hp
          · have hb := hu _ (UIThread.mem_batch hc')
            rw [hk] at hb
            exact absurd hb (Nat.lt_irrefl _)
        · exact absurd (ha _ (List.mem_of_getElem? hk)) (Nat.lt_irrefl _)

/-- Of the contexts, `StopServer` takes out one, and no other has its socket. -/
theorem stopServer_context {s : ZMQServer} (h : s.Inv) {handler : Nat} {it : ServerContext}
    (hf : s.context.find? (·.handler == handler) = some it) :
    (s.context.eraseP (·.handler == handler)).Sublist s.context ∧
      ∀ jt ∈ s.context.eraseP (·.handler == handler), jt.zmqSocket ≠ it.zmqSocket := by
  refine ⟨List.eraseP_sublist, fun jt hjt heq => ?_⟩
  obtain ⟨a, l₁, l₂, hl₁, ha, hl, he⟩ :=
    List.exists_of_eraseP (List.mem_of_find?_eq_some hf) (List.find?_some hf)
  have hnone : l₁.find? (·.handler == handler) = none := by
    rw [List.find?_eq_none]
    exact hl₁
  obtain rfl : a = it := by
    simpa [hl, List.find?_append, hnone, List.find?_cons, ha] using hf
  have hnd := h.nodup
  rw [hl, List.map_append, List.map_cons, List.nodup_middle, List.nodup_cons,
    ← List.map_append, ← he] at hnd
  exact hnd.1 (heq ▸ List.mem_map_of_mem hjt)

theorem inv_stopServer {s : ZMQServer} (h : s.Inv) (handler : Nat) :
    (s.stopServer handler).Inv := by
  rw [stopServer]
  split
  · exact h
  · next it hf =>
    obtain ⟨hsub, hne⟩ := stopServer_context h hf
    have hmem : ∀ jt ∈ s.context.eraseP (·.handler == handler), jt ∈ s.context :=
      fun jt hjt => hsub.subset hjt
    obtain ⟨hc, ha, hn, hu⟩ := h.made
    obtain ⟨howed, hsockets, htodo⟩ := h.numbers
    refine ⟨h.nodup.sublist (hsub.map _), ⟨fun jt hjt => hc jt (hmem jt hjt), ha, hn, hu⟩,
      h.netNodup, h.uiNodup, ⟨fun k n hk => howed k n ?_, hsockets, htodo⟩, h.past,
      fun jt hjt => h.net jt (hmem jt hjt), fun jt hjt => h.ui jt (hmem jt hjt),
      fun jt hjt => h.waiting jt (hmem jt hjt), fun jt hjt => ?_⟩
    · simp only [Wire.close_owed] at hk
      split at hk
      · cases hk
      · exact hk
    · refine (h.tracked jt (hmem jt hjt)).congr (fun _ => Iff.rfl) (fun _ _ => rfl)
        (fun _ _ => rfl) ?_ (fun _ => Iff.rfl)
      rw [Wire.close_owed, if_neg (hne jt hjt)]

/-! ## The network thread -/

theorem pollItems_sublist (s : ZMQServer) :
    s.pollItems.Sublist (s.context.map ServerContext.zmqSocket) := List.filter_sublist.map _

/-- While the network thread has nothing to post, what waits has been posted. -/
theorem Inv.tasks_pos {s : ZMQServer} (h : s.Inv) (hnet : ∀ active, s.net ≠ .posting active)
    {it : ServerContext} (hit : it ∈ s.context) (hp : it.state = .processing)
    (hb : it.zmqSocket ∉ s.ui.batch) : it.data.isSome ∧ 0 < s.tasks := by
  obtain ⟨hd, hw⟩ := h.waiting it hit hp hb
  refine ⟨hd, hw.resolve_right ?_⟩
  rintro ⟨active, hna, -⟩
  exact hnet active hna

theorem inv_poll {s : ZMQServer} (h : s.Inv) (hnet : s.net = .idle) :
    Inv { s with net := .polling s.pollItems } := by
  obtain ⟨hc, ha, hn, hu⟩ := h.made
  obtain ⟨howed, hsockets, htodo⟩ := h.numbers
  refine ⟨h.nodup, ⟨hc, ha, fun k hk => ?_, hu⟩,
    h.nodup.sublist s.pollItems_sublist, h.uiNodup, ⟨howed, by simp, htodo⟩, h.past,
    fun it hit hb => ?_, h.ui, fun it hit hp hb => ?_, fun it hit => ?_⟩
  · obtain ⟨it, hit, rfl⟩ := List.mem_map.1 (s.pollItems_sublist.subset hk)
    exact hc it hit
  · obtain ⟨jt, hjt, hk⟩ := List.mem_map.1 hb
    obtain ⟨hjt, hl⟩ := List.mem_filter.1 hjt
    obtain rfl : jt = it := List.inj_on_of_nodup_map h.nodup hjt hit hk
    exact of_decide_eq_true hl
  · obtain ⟨hd, hw⟩ := h.tasks_pos (by simp [hnet]) hit hp hb
    exact ⟨hd, .inl hw⟩
  · refine (h.tracked it hit).congr (fun _ => Iff.rfl) (fun _ _ => rfl) (fun _ _ => rfl) rfl
      fun n => ?_
    simp [Outstanding, hnet]

/-- `zmq_poll` returns without a request. -/
theorem inv_idle {s : ZMQServer} (h : s.Inv) {items : List Nat} (hnet : s.net = .polling items) :
    Inv { s with net := .idle } := by
  obtain ⟨hc, ha, -, hu⟩ := h.made
  obtain ⟨howed, -, htodo⟩ := h.numbers
  refine ⟨h.nodup, ⟨hc, ha, by simp, hu⟩, List.nodup_nil, h.uiNodup, ⟨howed, by simp, htodo⟩,
    h.past, by simp, h.ui, fun it hit hp hb => ?_, fun it hit => ?_⟩
  · obtain ⟨hd, hw⟩ := h.tasks_pos (by simp [hnet]) hit hp hb
    exact ⟨hd, .inl hw⟩
  · refine (h.tracked it hit).congr (fun _ => Iff.rfl) (fun _ _ => rfl) (fun _ _ => rfl) rfl
      fun n => ?_
    simp [Outstanding, hnet]

/-- What the network thread has in its hands after receiving: each request numbered, and owed a
reply by its socket. -/
theorem recv_spec (msgs : List (Nat × String)) : ∀ w : Wire, (msgs.map Prod.fst).Nodup →
    (w.recv msgs).1.arrived = w.arrived ++ msgs.map Prod.fst ∧
    (w.recv msgs).1.replied = w.replied ∧
    (w.recv msgs).2.map Prod.fst = msgs.map Prod.fst ∧
    (∀ k m, (k, m) ∈ (w.recv msgs).2 → w.arrived.length ≤ m.num ∧
      (w.recv msgs).1.arrived[m.num]? = some k ∧ (w.recv msgs).1.owed k = some m.num) ∧
    (∀ k, k ∉ msgs.map Prod.fst → (w.recv msgs).1.owed k = w.owed k) ∧
    ∀ k n : Nat, w.arrived.length ≤ n → (w.recv msgs).1.arrived[n]? = some k →
      ∃ m, (k, m) ∈ (w.recv msgs).2 ∧ m.num = n := by
  induction msgs with
  | nil =>
    intro w _
    refine ⟨by simp [Wire.recv], rfl, rfl, by simp [Wire.recv], fun _ _ => rfl,
      fun k n hn hk => ?_⟩
    rw [Wire.recv, List.getElem?_eq_none hn] at hk
    cases hk
  | cons msg msgs ih =>
    obtain ⟨socket, text⟩ := msg
    intro w hnd
    rw [List.map_cons, List.nodup_cons] at hnd
    obtain ⟨hnot, hnd⟩ := hnd
    obtain ⟨ha, hr, hf, hm, ho, hn⟩ := ih
      { w with
        arrived := w.arrived ++ [socket]
        owed := Function.update w.owed socket (some w.arrived.length) } hnd
    simp only [List.length_append, List.length_singleton] at ha hm hn
    have hget : (w.recv ((socket, text) :: msgs)).1.arrived[w.arrived.length]? = some socket := by
      simp only [Wire.recv, ha]
      simp
    refine ⟨?_, hr, ?_, fun k m hk => ?_, fun k hk => ?_, fun k n hle hk => ?_⟩
    · simp only [Wire.recv, ha, List.append_assoc, List.map_cons, List.singleton_append]
    · simp only [Wire.recv, List.map_cons, hf]
    · rcases List.mem_cons.1 hk with heq | hk
      · obtain ⟨rfl, rfl⟩ := Prod.mk.inj heq
        refine ⟨Nat.le_refl _, hget, ?_⟩
        show (Wire.recv msgs _).1.owed k = _
        rw [ho k hnot]
        exact Function.update_self _ _ _
      · obtain ⟨h1, h2, h3⟩ := hm k m hk
        exact ⟨by omega, h2, h3⟩
    · rw [List.map_cons, List.mem_cons, not_or] at hk
      show (Wire.recv msgs _).1.owed k = _
      rw [ho k hk.2]
      exact Function.update_of_ne hk.1 _ _
    · rcases Nat.eq_or_lt_of_le hle with rfl | hlt
      · rw [hget, Option.some_inj] at hk
        exact ⟨_, List.mem_cons.2 (.inl (by rw [← hk])), rfl⟩
      · obtain ⟨m, hm, hnum⟩ := hn k n (by omega) hk
        exact ⟨m, List.mem_cons_of_mem _ hm, hnum⟩

theorem inv_recv {s : ZMQServer} (h : s.Inv) {items : List Nat} (hnet : s.net = .polling items)
    {msgs : List (Nat × String)} (hsub : (msgs.map Prod.fst).Sublist items)
    (hcan : ∀ k ∈ msgs.map Prod.fst, s.CanRecv k) :
    Inv { s with wire := (s.wire.recv msgs).1, net := .marking (s.wire.recv msgs).2 } := by
  have hbusy : s.net.busy = items := by rw [hnet]; rfl
  have hnd : (msgs.map Prod.fst).Nodup := by
    have := h.netNodup
    rw [hbusy] at this
    exact this.sublist hsub
  obtain ⟨ha, hr, hf, hm, ho, hn⟩ := recv_spec msgs s.wire hnd
  obtain ⟨hc, harr, hnb, hu⟩ := h.made
  obtain ⟨howed, hsockets, htodo⟩ := h.numbers
  have hlisten : ∀ it ∈ s.context, it.zmqSocket ∈ msgs.map Prod.fst → it.state = .listening :=
    fun it hit hk => h.net it hit (by rw [hbusy]; exact hsub.subset hk)
  have hkeep : ∀ k n : Nat, s.wire.arrived[n]? = some k →
      (s.wire.recv msgs).1.arrived[n]? = some k := by
    intro k n hk
    rw [ha, List.getElem?_append_left (List.getElem?_eq_some_iff.1 hk).1]
    exact hk
  refine ⟨h.nodup, ⟨hc, fun k hk => ?_, fun k hk => ?_, hu⟩, ?_, h.uiNodup,
    ⟨fun k n hk => ?_, fun k m hk => (hm k m hk).2.1,
      fun c hc => (htodo c hc).imp fun m hm => ⟨hm.1, hkeep _ _ hm.2⟩⟩,
    fun n hn' => ?_, fun it hit hk => ?_, h.ui, fun it hit hp hb => ?_, fun it hit => ?_⟩
  · rw [ha, List.mem_append] at hk
    rcases hk with hk | hk
    · exact harr k hk
    · exact hnb k (by rw [hbusy]; exact hsub.subset hk)
  · rw [NetThread.busy, hf] at hk
    exact hnb k (by rw [hbusy]; exact hsub.subset hk)
  · rw [NetThread.busy, hf]
    exact hnd
  · by_cases hmem : k ∈ msgs.map Prod.fst
    · rw [← hf] at hmem
      obtain ⟨⟨k', m⟩, hkm, rfl⟩ := List.mem_map.1 hmem
      obtain ⟨-, h2, h3⟩ := hm k' m hkm
      rw [h3, Option.some_inj] at hk
      rw [← hk]
      exact h2
    · rw [ho k hmem] at hk
      exact hkeep k n (howed k n hk)
  · rw [Wire.answered, hr] at hn'
    have hlt := h.past n hn'
    rw [ha, List.length_append]
    omega
  · rw [NetThread.busy, hf] at hk
    exact hlisten it hit hk
  · obtain ⟨hd, hw⟩ := h.tasks_pos (by simp [hnet]) hit hp hb
    exact ⟨hd, .inl hw⟩
  · have htr := h.tracked it hit
    by_cases hmem : it.zmqSocket ∈ msgs.map Prod.fst
    · -- it owed no reply, so nothing was outstanding; now the new request is
      have hfree : ∀ n, ¬ s.Outstanding it n := by
        intro n hout
        have h4 := (htr.current n hout).2.2.2
        rw [(hcan _ hmem).2] at h4
        cases h4
      refine ⟨fun n hout => ?_, fun n hk => ?_⟩
      · have hin : ∃ m, (it.zmqSocket, m) ∈ (s.wire.recv msgs).2 ∧ m.num = n :=
          hout.resolve_right fun hold => hfree n (.inr hold)
        obtain ⟨m, hkm, rfl⟩ := hin
        obtain ⟨h1, h2, h3⟩ := hm _ m hkm
        refine ⟨h2, List.count_eq_zero_of_not_mem fun hmem => ?_,
          List.count_eq_zero_of_not_mem fun hmem => ?_, h3⟩
        · exact absurd (h.past _ (.inl hmem)) (by omega)
        · rw [Wire.answered, hr] at hmem
          exact absurd (h.past _ (.inr hmem)) (by omega)
      · rcases Nat.lt_or_ge n s.wire.arrived.length with hlt | hge
        · rw [ha, List.getElem?_append_left hlt] at hk
          rw [Wire.answered, hr]
          exact .inr ((htr.served n hk).resolve_left (hfree n))
        · exact .inl (.inl (hn _ n hge hk))
    · have hnone : ∀ m, (it.zmqSocket, m) ∉ (s.wire.recv msgs).2 := by
        intro m hkm
        rw [← hf] at hmem
        exact hmem (List.mem_map_of_mem (f := Prod.fst) hkm)
      refine htr.congr (fun n => ⟨fun hk => ?_, hkeep _ n⟩) (fun _ _ => rfl) (fun n _ => ?_)
        (ho _ hmem) fun n => ?_
      · rcases Nat.lt_or_ge n s.wire.arrived.length with hlt | hge
        · rwa [ha, List.getElem?_append_left hlt] at hk
        · obtain ⟨m, hkm, -⟩ := hn _ n hge hk
          exact absurd hkm (hnone m)
      · rw [Wire.answered, hr]
        rfl
      · simp [Outstanding, hnet, hnone]

/-! ### Marking -/

section Marking

variable (pre : ServerContext → Option String) (sockets : List (Nat × Message))

/-- The context as `ProcessEvent` leaves it. -/
def marked (it : ServerContext) : ServerContext :=
  match sockets.lookup it.zmqSocket with
  | none => it
  | some data =>
    let it := { it with state := .processing, data := some data }
    if (pre it).isSome then { it with state := .listening } else it

/-- The request of a context that `pre_handle_request` took. -/
def preHandled (it : ServerContext) : List Nat :=
  match sockets.lookup it.zmqSocket with
  | none => []
  | some data =>
    if (pre { it with state := .processing, data := some data }).isSome then [data.num] else []

@[simp] theorem marked_zmqSocket (it : ServerContext) :
    (marked pre sockets it).zmqSocket = it.zmqSocket := by
  rw [marked]
  split
  · rfl
  · dsimp only
    split <;> rfl

/-- What the loop of `ProcessEvent` does to the contexts `cs`. -/
structure Marks (cs : List ServerContext) (m r : Marking) : Prop where
  context : r.context = m.context ++ cs.map (marked pre sockets)
  handled : r.handled = m.handled ++ cs.flatMap (preHandled pre sockets)
  arrived : r.wire.arrived = m.wire.arrived
  answered : r.wire.answered = m.wire.answered ++ cs.flatMap (preHandled pre sockets)
  owed : ∀ k, r.wire.owed k = none ∨ r.wire.owed k = m.wire.owed k
  /-- A socket for which nothing was pre-handled owes what it owed. -/
  owedKept : ∀ k, (∀ it ∈ cs, it.zmqSocket = k → preHandled pre sockets it = []) →
    r.wire.owed k = m.wire.owed k
  activeRequest : m.activeRequest ≤ r.activeRequest
  /-- A request that was not pre-handled is counted. -/
  active : ∀ it ∈ cs, (sockets.lookup it.zmqSocket).isSome → preHandled pre sockets it = [] →
    m.activeRequest < r.activeRequest

variable {pre sockets} in
theorem Marks.cons {it : ServerContext} {cs : List ServerContext} {m r t : Marking}
    (h : Marks pre sockets [it] m r) (h' : Marks pre sockets cs r t) :
    Marks pre sockets (it :: cs) m t := by
  refine ⟨by rw [h'.context, h.context]; simp, by rw [h'.handled, h.handled]; simp,
    h'.arrived.trans h.arrived, by rw [h'.answered, h.answered]; simp, fun k => ?_, fun k hk => ?_,
    Nat.le_trans h.activeRequest h'.activeRequest, fun jt hjt hs hnil => ?_⟩
  · rcases h'.owed k with hk | hk
    · exact .inl hk
    · rw [hk]
      exact h.owed k
  · rw [h'.owedKept k fun jt hjt => hk jt (List.mem_cons_of_mem _ hjt)]
    exact h.owedKept k fun jt hjt => hk jt (List.mem_singleton.1 hjt ▸ List.mem_cons_self)
  · rcases List.mem_cons.1 hjt with rfl | hjt
    · exact Nat.lt_of_lt_of_le (h.active jt (List.mem_singleton_self jt) hs hnil) h'.activeRequest
    · exact Nat.lt_of_le_of_lt h.activeRequest (h'.active jt hjt hs hnil)

/-- One round of the loop. -/
theorem marks_markContext (m : Marking) {it : ServerContext}
    (howed : ∀ n ∈ preHandled pre sockets it, m.wire.owed it.zmqSocket = some n) :
    Marks pre sockets [it] m (markContext pre sockets m it) := by
  rcases hl : sockets.lookup it.zmqSocket with _ | data
  · have hpre : preHandled pre sockets it = [] := by simp [preHandled, hl]
    have hstep : markContext pre sockets m it = { m with context := m.context ++ [it] } := by
      simp [markContext, hl]
    rw [hstep]
    refine ⟨by simp [marked, hl], by simp [hpre], rfl, by simp [hpre], fun _ => .inr rfl,
      fun _ _ => rfl, Nat.le_refl _, fun jt hjt hs => ?_⟩
    rw [List.mem_singleton.1 hjt, hl] at hs
    cases hs
  · rcases hp : pre { it with state := .processing, data := some data } with _ | reply
    · have hpre : preHandled pre sockets it = [] := by simp [preHandled, hl, hp]
      have hstep : markContext pre sockets m it =
          { m with
            context := m.context ++ [{ it with state := .processing, data := some data }]
            activeRequest := m.activeRequest + 1 } := by
        simp [markContext, hl, hp]
      rw [hstep]
      exact ⟨by simp [marked, hl, hp], by simp [hpre], rfl, by simp [hpre], fun _ => .inr rfl,
        fun _ _ => rfl, Nat.le_succ _, fun _ _ _ _ => Nat.lt_succ_self _⟩
    · have hpre : preHandled pre sockets it = [data.num] := by simp [preHandled, hl, hp]
      have hown := howed data.num (by simp [hpre])
      have hstep : markContext pre sockets m it =
          { m with
            context := m.context ++ [{ it with state := .listening, data := some data }]
            wire := m.wire.send it.zmqSocket reply
            handled := m.handled ++ [data.num] } := by
        simp [markContext, hl, hp]
      rw [hstep]
      refine ⟨by simp [marked, hl, hp], by simp [hpre], by simp, by simp [hpre, hown],
        fun k => ?_, fun k hk => ?_, Nat.le_refl _, fun jt hjt _ hnil => ?_⟩
      · rw [Wire.send_owed]
        split
        · exact .inl rfl
        · exact .inr rfl
      · have hne : k ≠ it.zmqSocket := by
          rintro rfl
          have hnil := hk it (List.mem_singleton_self it) rfl
          rw [hpre] at hnil
          cases hnil
        rw [Wire.send_owed, if_neg hne]
      · rw [List.mem_singleton.1 hjt, hpre] at hnil
        cases hnil

/-- The loop of `ProcessEvent`, over contexts with distinct sockets. -/
theorem marks_foldl {cs : List ServerContext} (m : Marking)
    (hnd : (cs.map ServerContext.zmqSocket).Nodup)
    (howed : ∀ it ∈ cs, ∀ n ∈ preHandled pre sockets it, m.wire.owed it.zmqSocket = some n) :
    Marks pre sockets cs m (cs.foldl (markContext pre sockets) m) := by
  induction cs generalizing m with
  | nil => constructor <;> simp
  | cons it cs ih =>
    rw [List.map_cons, List.nodup_cons] at hnd
    have hone := marks_markContext pre sockets m (howed it List.mem_cons_self)
    refine hone.cons (ih _ hnd.2 fun jt hjt n hn => ?_)
    rw [hone.owedKept jt.zmqSocket fun it' hit' heq => ?_]
    · exact howed jt (List.mem_cons_of_mem _ hjt) n hn
    · rw [List.mem_singleton.1 hit'] at heq
      exact absurd (heq ▸ List.mem_map_of_mem hjt) hnd.1

theorem mem_of_lookup {k : Nat} {data : Message} (h : sockets.lookup k = some data) :
    (k, data) ∈ sockets := by
  obtain ⟨l₁, l₂, rfl, -⟩ := List.lookup_eq_some_iff.1 h
  simp

theorem lookup_of_mem (hnd : (sockets.map Prod.fst).Nodup) {k : Nat} {data : Message}
    (h : (k, data) ∈ sockets) : sockets.lookup k = some data := by
  rcases hl : sockets.lookup k with _ | data'
  · have hne := List.lookup_eq_none_iff.1 hl _ h
    simp at hne
  · have heq := List.inj_on_of_nodup_map hnd (mem_of_lookup sockets hl) h rfl
    rw [(Prod.mk.inj heq).2]

theorem mem_preHandled {it : ServerContext} {n : Nat} (h : n ∈ preHandled pre sockets it) :
    ∃ data, sockets.lookup it.zmqSocket = some data ∧ data.num = n := by
  rw [preHandled] at h
  split at h
  · cases h
  · next data hl =>
    split at h
    · exact ⟨data, hl, (List.mem_singleton.1 h).symm⟩
    · cases h

end Marking

/-- A request is counted for the one context that has its socket. -/
theorem count_flatMap_of_unique {cs : List ServerContext}
    (hnd : (cs.map ServerContext.zmqSocket).Nodup) {it : ServerContext} (hit : it ∈ cs)
    {f : ServerContext → List Nat} {n : Nat}
    (hf : ∀ jt ∈ cs, n ∈ f jt → jt.zmqSocket = it.zmqSocket) :
    (cs.flatMap f).count n = (f it).count n := by
  induction cs with
  | nil => cases hit
  | cons c cs ih =>
    rw [List.map_cons, List.nodup_cons] at hnd
    rw [List.flatMap_cons, List.count_append]
    rcases List.mem_cons.1 hit with rfl | hit
    · have hzero : (cs.flatMap f).count n = 0 := by
        refine List.count_eq_zero_of_not_mem fun hmem => ?_
        obtain ⟨jt, hjt, hn⟩ := List.mem_flatMap.1 hmem
        have heq := hf jt (List.mem_cons_of_mem _ hjt) hn
        exact hnd.1 (heq ▸ List.mem_map_of_mem hjt)
      rw [hzero, Nat.add_zero]
    · have hzero : (f c).count n = 0 := by
        refine List.count_eq_zero_of_not_mem fun hmem => ?_
        have heq := hf c List.mem_cons_self hmem
        exact hnd.1 (heq ▸ List.mem_map_of_mem hit)
      rw [hzero, Nat.zero_add, ih hnd.2 hit fun jt hjt => hf jt (List.mem_cons_of_mem _ hjt)]

/-- What the thread has received for a context is outstanding, and the context is listening. -/
theorem Inv.of_lookup {s : ZMQServer} (h : s.Inv) {sockets : List (Nat × Message)}
    (hnet : s.net = .marking sockets) {it : ServerContext} (hit : it ∈ s.context) {data : Message}
    (hl : sockets.lookup it.zmqSocket = some data) :
    it.state = .listening ∧ s.Outstanding it data.num := by
  have hmem := mem_of_lookup sockets hl
  refine ⟨h.net it hit ?_, .inl ⟨data, by rw [hnet]; exact hmem, rfl⟩⟩
  rw [hnet]
  exact List.mem_map_of_mem (f := Prod.fst) hmem

/-- A request is pre-handled at most for the context whose socket it came from. -/
theorem Inv.count_preHandled {s : ZMQServer} (h : s.Inv) {sockets : List (Nat × Message)}
    (hnet : s.net = .marking sockets) (pre : ServerContext → Option String) {it : ServerContext}
    (hit : it ∈ s.context) {n : Nat} (hk : s.wire.arrived[n]? = some it.zmqSocket) :
    (s.context.flatMap (preHandled pre sockets)).count n = (preHandled pre sockets it).count n := by
  refine count_flatMap_of_unique h.nodup hit fun jt _ hn => ?_
  obtain ⟨data, hl, rfl⟩ := mem_preHandled pre sockets hn
  have hk' := h.numbers.2.1 _ _ (by rw [hnet]; exact mem_of_lookup sockets hl)
  rw [hk, Option.some_inj] at hk'
  exact hk'.symm

theorem Inv.marks {s : ZMQServer} (h : s.Inv) {sockets : List (Nat × Message)}
    (hnet : s.net = .marking sockets) (pre : ServerContext → Option String) :
    Marks pre sockets s.context { wire := s.wire, handled := s.handled }
      (s.context.foldl (markContext pre sockets) { wire := s.wire, handled := s.handled }) := by
  refine marks_foldl pre sockets _ h.nodup fun it hit n hn => ?_
  obtain ⟨data, hl, rfl⟩ := mem_preHandled pre sockets hn
  exact ((h.tracked it hit).current _ (h.of_lookup hnet hit hl).2).2.2.2

/-- The requests of a context after the loop: one that was received is in the context now, or it is
answered. -/
theorem Inv.tracked_marked {s : ZMQServer} (h : s.Inv) {sockets : List (Nat × Message)}
    (hnet : s.net = .marking sockets) {pre : ServerContext → Option String} {r : Marking}
    (hr : Marks pre sockets s.context { wire := s.wire, handled := s.handled } r)
    {it : ServerContext} (hit : it ∈ s.context) {context : List ServerContext} {active : Nat} :
    Tracked r.wire r.handled it.zmqSocket
      (Outstanding { s with
        context := context
        wire := r.wire
        handled := r.handled
        net := .posting active } (marked pre sockets it)) := by
  have hnd : (sockets.map Prod.fst).Nodup := by
    have hbusy := h.netNodup
    rwa [hnet] at hbusy
  have htr := h.tracked it hit
  have hhandled : ∀ n : Nat, s.wire.arrived[n]? = some it.zmqSocket →
      r.handled.count n = s.handled.count n + (preHandled pre sockets it).count n := by
    intro n hk
    rw [hr.handled, List.count_append, h.count_preHandled hnet pre hit hk]
  have hanswered : ∀ n : Nat, s.wire.arrived[n]? = some it.zmqSocket →
      r.wire.answered.count n =
        s.wire.answered.count n + (preHandled pre sockets it).count n := by
    intro n hk
    rw [hr.answered, List.count_append, h.count_preHandled hnet pre hit hk]
  have howes : preHandled pre sockets it = [] →
      r.wire.owed it.zmqSocket = s.wire.owed it.zmqSocket := by
    intro hnil
    refine hr.owedKept _ fun jt hjt heq => ?_
    rw [List.inj_on_of_nodup_map h.nodup hjt hit heq]
    exact hnil
  have hcongr : preHandled pre sockets it = [] → ∀ {out : Nat → Prop},
      (∀ n, out n ↔ s.Outstanding it n) → Tracked r.wire r.handled it.zmqSocket out := by
    intro hnil out hout
    refine htr.congr (fun n => by rw [hr.arrived]) (fun n hk => ?_) (fun n hk => ?_) (howes hnil)
      hout
    · rw [hhandled n hk, hnil, List.count_nil, Nat.add_zero]
    · rw [hanswered n hk, hnil, List.count_nil, Nat.add_zero]
  rcases hl : sockets.lookup it.zmqSocket with _ | data
  · have hnone : ∀ m, (it.zmqSocket, m) ∉ sockets := by
      intro m hm
      rw [lookup_of_mem sockets hnd hm] at hl
      cases hl
    refine hcongr (by simp [preHandled, hl]) fun n => ?_
    simp [Outstanding, marked, hl, hnet, hnone]
  · obtain ⟨hlis, hout⟩ := h.of_lookup hnet hit hl
    rcases hpr : pre { it with state := .processing, data := some data } with _ | reply
    · -- the request moves from the hands of the thread into the context
      have hin : ∀ n, (∃ m, (it.zmqSocket, m) ∈ sockets ∧ m.num = n) ↔ data.num = n := by
        refine fun n => ⟨fun ⟨m, hm, hn⟩ => ?_, fun hn => ⟨data, mem_of_lookup sockets hl, hn⟩⟩
        rw [lookup_of_mem sockets hnd hm, Option.some_inj] at hl
        rw [← hl]
        exact hn
      refine hcongr (by simp [preHandled, hl, hpr]) fun n => ?_
      simp [Outstanding, marked, hl, hpr, hnet, hin, hlis]
    · -- it is handled and answered on the spot
      have hpres : preHandled pre sockets it = [data.num] := by simp [preHandled, hl, hpr]
      rw [hpres] at hhandled hanswered
      refine htr.answer hout hr.arrived hhandled hanswered fun n => ?_
      rintro (⟨m, hm, -⟩ | ⟨hp, -⟩ | ⟨c, hc, hck, -⟩)
      · cases hm
      · simp [marked, hl, hpr] at hp
      · rw [marked_zmqSocket] at hck
        have hui := (h.ui it hit (hck ▸ UIThread.mem_batch hc)).1
        rw [hlis] at hui
        cases hui

theorem inv_mark {s : ZMQServer} (h : s.Inv) {sockets : List (Nat × Message)}
    (hnet : s.net = .marking sockets) (pre : ServerContext → Option String) :
    (s.mark pre sockets).Inv := by
  obtain ⟨hc, harr, -, hu⟩ := h.made
  obtain ⟨howed, hsockets, htodo⟩ := h.numbers
  rw [hnet] at hsockets
  have hr := h.marks hnet pre
  rw [mark]
  generalize s.context.foldl (markContext pre sockets) { wire := s.wire, handled := s.handled } = r
    at hr
  have hcontext : r.context = s.context.map (marked pre sockets) := hr.context
  have hold : ∀ it ∈ r.context, ∃ jt ∈ s.context, it = marked pre sockets jt := by
    intro it hit
    rw [hcontext] at hit
    obtain ⟨jt, hjt, rfl⟩ := List.mem_map.1 hit
    exact ⟨jt, hjt, rfl⟩
  have hnums : ∀ n ∈ s.context.flatMap (preHandled pre sockets), n < s.wire.arrived.length := by
    intro n hn
    obtain ⟨jt, -, hn⟩ := List.mem_flatMap.1 hn
    obtain ⟨data, hl, rfl⟩ := mem_preHandled pre sockets hn
    exact (List.getElem?_eq_some_iff.1 (hsockets _ _ (mem_of_lookup sockets hl))).1
  refine ⟨?_, ⟨fun it hit => ?_, by rw [hr.arrived]; exact harr, by simp, hu⟩, List.nodup_nil,
    h.uiNodup, ⟨fun k n hk => ?_, by simp, by rw [hr.arrived]; exact htodo⟩, fun n hn => ?_,
    by simp, fun it hit hb => ?_, fun it hit hp hb => ?_, fun it hit => ?_⟩
  · rw [hcontext, map_zmqSocket (marked_zmqSocket pre sockets)]
    exact h.nodup
  · obtain ⟨jt, hjt, rfl⟩ := hold it hit
    rw [marked_zmqSocket]
    exact hc jt hjt
  · rw [hr.arrived]
    rcases hr.owed k with hnone | hsame
    · rw [hnone] at hk
      cases hk
    · exact howed k n (hsame ▸ hk)
  · rw [hr.arrived]
    rw [hr.handled, hr.answered, List.mem_append, List.mem_append] at hn
    rcases hn with (hn | hn) | (hn | hn)
    · exact h.past n (.inl hn)
    · exact hnums n hn
    · exact h.past n (.inr hn)
    · exact hnums n hn
  · obtain ⟨jt, hjt, rfl⟩ := hold it hit
    rw [marked_zmqSocket] at hb
    have hui := h.ui jt hjt hb
    rcases hl : sockets.lookup jt.zmqSocket with _ | data
    · simpa [marked, hl] using hui
    · rw [(h.of_lookup hnet hjt hl).1] at hui
      cases hui.1
  · obtain ⟨jt, hjt, rfl⟩ := hold it hit
    rw [marked_zmqSocket] at hb
    rcases hl : sockets.lookup jt.zmqSocket with _ | data
    · have hmarked : marked pre sockets jt = jt := by simp [marked, hl]
      rw [hmarked] at hp ⊢
      obtain ⟨hd, hw⟩ := h.tasks_pos (by simp [hnet]) hjt hp hb
      exact ⟨hd, .inl hw⟩
    · rcases hpr : pre { jt with state := .processing, data := some data } with _ | reply
      · refine ⟨by simp [marked, hl, hpr], .inr ⟨_, rfl, ?_⟩⟩
        exact hr.active jt hjt (by simp [hl]) (by simp [preHandled, hl, hpr])
      · simp [marked, hl, hpr] at hp
  · obtain ⟨jt, hjt, rfl⟩ := hold it hit
    rw [marked_zmqSocket]
    exact h.tracked_marked hnet hr hjt

theorem inv_post {s : ZMQServer} (h : s.Inv) {activeRequest : Nat}
    (hnet : s.net = .posting activeRequest) :
    Inv { s with
      tasks := if activeRequest > 0 then s.tasks + 1 else s.tasks
      net := .idle } := by
  obtain ⟨hc, harr, -, hu⟩ := h.made
  obtain ⟨howed, -, htodo⟩ := h.numbers
  refine ⟨h.nodup, ⟨hc, harr, by simp, hu⟩, List.nodup_nil, h.uiNodup, ⟨howed, by simp, htodo⟩,
    h.past, by simp, h.ui, fun it hit hp hb => ?_, fun it hit => ?_⟩
  · obtain ⟨hd, hw⟩ := h.waiting it hit hp hb
    refine ⟨hd, .inl ?_⟩
    rcases hw with hw | ⟨active, hna, hpos⟩
    · show 0 < if activeRequest > 0 then s.tasks + 1 else s.tasks
      split <;> omega
    · rw [hnet, NetThread.posting.injEq] at hna
      show 0 < if activeRequest > 0 then s.tasks + 1 else s.tasks
      rw [if_pos (by omega)]
      exact Nat.succ_pos _
  · refine (h.tracked it hit).congr (fun _ => Iff.rfl) (fun _ _ => rfl) (fun _ _ => rfl) rfl
      fun n => ?_
    simp [Outstanding, hnet]

/-! ## The UI thread -/

theorem inv_collect {s : ZMQServer} (h : s.Inv) (hui : s.ui = .idle) (tasks : Nat) :
    (collect { s with tasks := tasks }).Inv := by
  obtain ⟨hc, harr, hnb, -⟩ := h.made
  obtain ⟨howed, hsockets, -⟩ := h.numbers
  have hwait : ∀ it ∈ s.context, it.state = .processing → ∃ m, it.data = some m := by
    intro it hit hp
    exact Option.isSome_iff_exists.1 (h.waiting it hit hp (by rw [hui]; simp)).1
  have hout : ∀ it ∈ s.context, ∀ n, s.Outstanding it n ↔
      (∃ m, (it.zmqSocket, m) ∈ s.net.sockets ∧ m.num = n) ∨
        it.state = .processing ∧ ∃ m, it.data = some m ∧ m.num = n := by
    intro it _ n
    simp [Outstanding, hui]
  have htodo : ∀ c ∈ s.context.filter (·.state = .processing), c ∈ s.context ∧
      c.state = .processing := by
    intro c hc'
    obtain ⟨hc', hp⟩ := List.mem_filter.1 hc'
    exact ⟨hc', of_decide_eq_true hp⟩
  have hold : ∀ it ∈ (collect { s with tasks := tasks }).context, ∃ jt ∈ s.context,
      it.zmqSocket = jt.zmqSocket ∧ it.state = jt.state ∧
        (jt.state = .processing → it.data = none) := by
    intro it hit
    obtain ⟨jt, hjt, rfl⟩ := List.mem_map.1 hit
    refine ⟨jt, hjt, ?_⟩
    split
    · exact ⟨rfl, rfl, fun _ => rfl⟩
    · next hp => exact ⟨rfl, rfl, fun hp' => absurd hp' hp⟩
  refine ⟨?_, ⟨fun it hit => ?_, harr, hnb, fun k hk => ?_⟩, h.netNodup, ?_,
    ⟨howed, hsockets, fun c hc' => ?_⟩, h.past, fun it hit hb => ?_, fun it hit hb => ?_,
    fun it hit hp hb => ?_, fun it hit => ?_⟩
  · rw [collect, map_zmqSocket fun it => by split <;> rfl]
    exact h.nodup
  · obtain ⟨jt, hjt, hk, -⟩ := hold it hit
    rw [hk]
    exact hc jt hjt
  · obtain ⟨c, hc', rfl⟩ := List.mem_map.1 hk
    exact hc c (htodo c hc').1
  · exact h.nodup.sublist (List.filter_sublist.map _)
  · obtain ⟨hcm, hp⟩ := htodo c hc'
    obtain ⟨m, hm⟩ := hwait c hcm hp
    exact ⟨m, hm, ((h.tracked c hcm).current m.num
      ((hout c hcm _).2 (.inr ⟨hp, m, hm, rfl⟩))).1⟩
  · obtain ⟨jt, hjt, hk, hst, -⟩ := hold it hit
    rw [hst]
    exact h.net jt hjt (hk ▸ hb)
  · obtain ⟨jt, hjt, hk, hst, hd⟩ := hold it hit
    obtain ⟨c, hc', hck⟩ := List.mem_map.1 hb
    obtain ⟨hcm, hp⟩ := htodo c hc'
    obtain rfl : c = jt := List.inj_on_of_nodup_map h.nodup hcm hjt (hck.trans hk)
    exact ⟨hst.trans hp, hd hp⟩
  · obtain ⟨jt, hjt, hk, hst, -⟩ := hold it hit
    refine absurd ?_ hb
    rw [hk]
    exact List.mem_map_of_mem
      (List.mem_filter.2 ⟨hjt, decide_eq_true (hst.symm.trans hp)⟩)
  · obtain ⟨jt, hjt, hk, hst, hd⟩ := hold it hit
    have htr := h.tracked jt hjt
    rw [hk]
    refine htr.congr (fun _ => Iff.rfl) (fun _ _ => rfl) (fun _ _ => rfl) rfl fun n => ?_
    rw [hout jt hjt, Outstanding, hk]
    refine or_congr Iff.rfl ⟨?_, fun ⟨hp, hm⟩ => .inr ⟨jt, ?_, rfl, hm⟩⟩
    · rintro (⟨hp, m, hm, -⟩ | ⟨c, hc', hck, hm⟩)
      · rw [hd (hst.symm.trans hp)] at hm
        cases hm
      · obtain ⟨hcm, hp⟩ := htodo c hc'
        obtain rfl : c = jt := List.inj_on_of_nodup_map h.nodup hcm hjt hck
        exact ⟨hp, hm⟩
    · exact List.mem_filter.2 ⟨hjt, decide_eq_true hp⟩

theorem inv_handle {s : ZMQServer} (h : s.Inv) {served todo : List ServerContext}
    {it₀ : ServerContext} (hui : s.ui = .handling served (it₀ :: todo)) (reply : String) :
    (s.handleRequest reply served todo it₀).Inv := by
  obtain ⟨hc, harr, hnb, hu⟩ := h.made
  obtain ⟨howed, hsockets, htodo⟩ := h.numbers
  have hbatch : (UIThread.handling (served ++ [it₀]) todo).batch = s.ui.batch := by
    simp [hui]
  rw [hui] at htodo
  obtain ⟨m₀, hm₀, harr₀⟩ := htodo it₀ List.mem_cons_self
  have hin : it₀.zmqSocket ∈ s.ui.batch := by simp [hui]
  have hnot : ∀ c ∈ todo, c.zmqSocket ≠ it₀.zmqSocket := by
    intro c hc' heq
    have hnd := h.uiNodup
    rw [hui, UIThread.batch, List.map_append, List.map_cons, List.nodup_append,
      List.nodup_cons] at hnd
    exact hnd.2.1.1 (heq ▸ List.mem_map_of_mem hc')
  have hnums : (it₀.data.map Message.num).toList = [m₀.num] := by rw [hm₀]; rfl
  rw [handleRequest, hnums]
  refine ⟨h.nodup, ⟨hc, by simpa using harr, hnb, by rw [hbatch]; exact hu⟩, h.netNodup,
    by rw [hbatch]; exact h.uiNodup, ⟨fun k n hk => ?_, by simpa using hsockets,
      fun c hc' => ?_⟩, fun n hn => ?_, h.net, by rw [hbatch]; exact h.ui,
    by rw [hbatch]; exact h.waiting, fun it hit => ?_⟩
  · simp only [Wire.send_owed] at hk
    rw [Wire.send_arrived]
    split at hk
    · cases hk
    · exact howed k n hk
  · obtain ⟨m, hm, ha⟩ := htodo c (List.mem_cons_of_mem _ hc')
    exact ⟨m, hm, by rw [Wire.send_arrived]; exact ha⟩
  · rw [Wire.send_arrived]
    rw [Wire.send_answered, List.mem_append, List.mem_append] at hn
    rcases hn with (hn | hn) | (hn | hn)
    · exact h.past n (.inl hn)
    · rw [List.mem_singleton.1 hn]
      exact (List.getElem?_eq_some_iff.1 harr₀).1
    · exact h.past n (.inr hn)
    · exact (List.getElem?_eq_some_iff.1 (howed _ n (Option.mem_toList.1 hn))).1
  · have htr := h.tracked it hit
    by_cases hk : it.zmqSocket = it₀.zmqSocket
    · -- its request is the one that is answered
      obtain ⟨hproc, hdata⟩ := h.ui it hit (hk ▸ hin)
      have hout : s.Outstanding it m₀.num :=
        .inr (.inr ⟨it₀, by rw [hui]; exact List.mem_cons_self, hk.symm, m₀, hm₀, rfl⟩)
      have how := (htr.current _ hout).2.2.2
      refine htr.answer hout (Wire.send_arrived _ _ _) (fun n _ => List.count_append)
        (fun n _ => ?_) fun n => ?_
      · rw [Wire.send_answered, ← hk, how, List.count_append]
        rfl
      · rintro (⟨m, hm, -⟩ | ⟨-, m, hm, -⟩ | ⟨c, hc', hck, -⟩)
        · have hl := h.net it hit (NetThread.mem_busy hm)
          rw [hproc] at hl
          cases hl
        · simp [hdata] at hm
        · exact absurd (hck.trans hk) (hnot c hc')
    · refine htr.congr (fun n => by rw [Wire.send_arrived]) (fun n hkn => ?_) (fun n hkn => ?_)
        ?_ fun n => ?_
      · rw [List.count_append, List.count_singleton]
        have hne : m₀.num ≠ n := by
          rintro rfl
          rw [harr₀, Option.some_inj] at hkn
          exact hk hkn.symm
        simp [hne]
      · rw [Wire.send_answered, List.count_append]
        rcases ho : s.wire.owed it₀.zmqSocket with _ | n₀
        · simp
        · have hne : n₀ ≠ n := by
            rintro rfl
            rw [howed _ _ ho, Option.some_inj] at hkn
            exact hk hkn.symm
          simp [hne]
      · rw [Wire.send_owed, if_neg hk]
      · rw [Outstanding, Outstanding, hui]
        refine or_congr Iff.rfl (or_congr Iff.rfl ?_)
        simp only [UIThread.todo, List.mem_cons]
        refine ⟨fun ⟨c, hc', h'⟩ => ⟨c, .inr hc', h'⟩, ?_⟩
        rintro ⟨c, rfl | hc', hck, h'⟩
        · exact absurd hck.symm hk
        · exact ⟨c, hc', hck, h'⟩

/-- The last section of `ProcessRequestImpl` finds a context PROCESSING that is not in its batch. -/
def Overwrites (s : ZMQServer) : Action → Prop
  | .reset => (∃ served, s.ui = .handling served []) ∧
      ∃ it ∈ s.context, it.state = .processing ∧ it.zmqSocket ∉ s.ui.batch
  | _ => False

theorem inv_reset {s : ZMQServer} (h : s.Inv) {served : List ServerContext}
    (hui : s.ui = .handling served []) (hno : ¬ s.Overwrites .reset) : s.reset.Inv := by
  obtain ⟨hc, harr, hnb, -⟩ := h.made
  obtain ⟨howed, hsockets, -⟩ := h.numbers
  have hin : ∀ it ∈ s.context, it.state = .processing → it.zmqSocket ∈ s.ui.batch := by
    intro it hit hp
    by_contra hb
    exact hno ⟨⟨served, hui⟩, it, hit, hp, hb⟩
  have hold : ∀ it ∈ s.reset.context, ∃ jt ∈ s.context,
      it.zmqSocket = jt.zmqSocket ∧ it.state = .listening := by
    intro it hit
    obtain ⟨jt, hjt, rfl⟩ := List.mem_map.1 hit
    refine ⟨jt, hjt, ?_⟩
    split
    · exact ⟨rfl, rfl⟩
    · next hp =>
      refine ⟨rfl, ?_⟩
      rcases hs : jt.state
      · rfl
      · exact absurd hs hp
  refine ⟨?_, ⟨fun it hit => ?_, harr, hnb, by simp [reset]⟩, h.netNodup, List.nodup_nil,
    ⟨howed, hsockets, by simp [reset]⟩, h.past, fun it hit _ => ?_, by simp [reset],
    fun it hit hp => ?_, fun it hit => ?_⟩
  · rw [reset, map_zmqSocket fun it => by split <;> rfl]
    exact h.nodup
  · obtain ⟨jt, hjt, hk, -⟩ := hold it hit
    rw [hk]
    exact hc jt hjt
  · obtain ⟨-, -, -, hst⟩ := hold it hit
    exact hst
  · obtain ⟨-, -, -, hst⟩ := hold it hit
    rw [hst] at hp
    cases hp
  · obtain ⟨jt, hjt, hk, hst⟩ := hold it hit
    rw [hk]
    refine (h.tracked jt hjt).congr (fun _ => Iff.rfl) (fun _ _ => rfl) (fun _ _ => rfl) rfl
      fun n => ?_
    rw [Outstanding, Outstanding, hk]
    refine or_congr Iff.rfl ⟨?_, ?_⟩
    · rintro (⟨hp, -⟩ | ⟨c, hc', -⟩)
      · rw [hst] at hp
        cases hp
      · simp [reset] at hc'
    · rintro (⟨hp, m, hm, -⟩ | ⟨c, hc', -⟩)
      · rw [(h.ui jt hjt (hin jt hjt hp)).2] at hm
        cases hm
      · simp [hui] at hc'

/-! ## Runs of the server -/

theorem inv_step {s t : ZMQServer} {a : Action} (h : s.Inv) (hno : ¬ s.Overwrites a)
    (hstep : step s a = some t) : t.Inv := by
  rcases a with ⟨handler, address⟩ | handler | _ | msgs | pre | _ | _ | reply | _
  · obtain rfl := Option.some_inj.1 hstep
    exact inv_startServer h handler address
  · obtain rfl := Option.some_inj.1 hstep
    exact inv_stopServer h handler
  all_goals simp only [step] at hstep
  · split at hstep
    · next hnet =>
      obtain rfl := Option.some_inj.1 hstep
      exact inv_poll h hnet
    · cases hstep
  · split at hstep
    · next items hnet =>
      split at hstep
      · next hcan =>
        split at hstep
        · obtain rfl := Option.some_inj.1 hstep
          exact inv_idle h hnet
        · obtain rfl := Option.some_inj.1 hstep
          exact inv_recv h hnet hcan.1 hcan.2
      · cases hstep
    · cases hstep
  · split at hstep
    · next sockets hnet =>
      obtain rfl := Option.some_inj.1 hstep
      exact inv_mark h hnet pre
    · cases hstep
  · split at hstep
    · next active hnet =>
      obtain rfl := Option.some_inj.1 hstep
      exact inv_post h hnet
    · cases hstep
  · split at hstep
    · next hui =>
      split at hstep
      · obtain rfl := Option.some_inj.1 hstep
        exact inv_collect h hui _
      · cases hstep
    · cases hstep
  · split at hstep
    · next served it todo hui =>
      obtain rfl := Option.some_inj.1 hstep
      exact inv_handle h hui reply
    · cases hstep
  · split at hstep
    · next served hui =>
      obtain rfl := Option.some_inj.1 hstep
      exact inv_reset h hui hno
    · cases hstep

/-- Neither thread has anything left to do with a request. -/
def Quiet (s : ZMQServer) : Prop :=
  s.net.sockets = [] ∧ (∀ active, s.net ≠ .posting active) ∧ s.ui = .idle ∧ s.tasks = 0

/-- Every request is served once, for the servers that are registered. -/
structure ServedOnce (s : ZMQServer) : Prop where
  /-- No request is handled or answered twice. -/
  atMostOnce : ∀ it ∈ s.context, ∀ n : Nat, s.wire.arrived[n]? = some it.zmqSocket →
    s.handled.count n ≤ 1 ∧ s.wire.answered.count n ≤ 1
  /-- A server that listens has handled and answered all it has received, but for what the network
  thread is just about to mark. -/
  listening : ∀ it ∈ s.context, it.state = .listening →
    ∀ n : Nat, s.wire.arrived[n]? = some it.zmqSocket →
      (∀ m, (it.zmqSocket, m) ∈ s.net.sockets → m.num ≠ n) →
      s.handled.count n = 1 ∧ s.wire.answered.count n = 1
  /-- No server is left PROCESSING. -/
  quiet : s.Quiet → ∀ it ∈ s.context, it.state = .listening

theorem Inv.servedOnce {s : ZMQServer} (h : s.Inv) : s.ServedOnce := by
  refine ⟨fun it hit n hk => ?_, fun it hit hl n hk hnot => ?_, fun ⟨_, hnp, hui, ht⟩ it hit => ?_⟩
  · have htr := h.tracked it hit
    rcases htr.served n hk with hout | ⟨h1, h2⟩
    · obtain ⟨-, h1, h2, -⟩ := htr.current n hout
      omega
    · omega
  · refine ((h.tracked it hit).served n hk).resolve_left ?_
    rintro (⟨m, hm, hn⟩ | ⟨hp, -⟩ | ⟨c, hc, hck, -⟩)
    · exact hnot m hm hn
    · rw [hl] at hp
      cases hp
    · have hp := (h.ui it hit (hck ▸ UIThread.mem_batch hc)).1
      rw [hl] at hp
      cases hp
  · rcases hs : it.state
    · rfl
    · obtain ⟨-, hw⟩ := h.waiting it hit hs (by simp [hui])
      rcases hw with hw | ⟨active, hna, -⟩
      · omega
      · exact absurd hna (hnp active)

/-- Setting a context that was not collected back to LISTENING forgets its request. -/
theorem not_servedOnce_of_overwrites {s : ZMQServer} {a : Action} (h : s.Inv)
    (ho : s.Overwrites a) : ∃ t, step s a = some t ∧ ¬ t.ServedOnce := by
  rcases a with _ | _ | _ | _ | _ | _ | _ | _ | _
  case reset =>
    obtain ⟨⟨served, hui⟩, it, hit, hp, hb⟩ := ho
    refine ⟨s.reset, by simp [step, hui], fun hs => ?_⟩
    obtain ⟨hd, -⟩ := h.waiting it hit hp hb
    obtain ⟨m, hm⟩ := Option.isSome_iff_exists.1 hd
    obtain ⟨hk, h0, -, -⟩ := (h.tracked it hit).current m.num (.inr (.inl ⟨hp, m, hm, rfl⟩))
    have hmem : { it with state := .listening } ∈ s.reset.context := by
      refine List.mem_map.2 ⟨it, hit, ?_⟩
      rw [if_pos hp]
    have hone := hs.listening _ hmem rfl m.num hk fun m' hm' => ?_
    · have h1 : s.handled.count m.num = 1 := hone.1
      omega
    · have hl := h.net it hit (NetThread.mem_busy hm')
      rw [hp] at hl
      cases hl
  all_goals exact ho.elim

/-- **When every request is served once.**  In a run of the server, with any servers started and
stopped, any requests and handlers, and any order of the threads, every request is served once if
and only if the UI thread never sets a context back to LISTENING that it has not collected. -/
theorem served_once_iff (as : List Action) :
    step.Meets (fun s a => ∀ t, step s a = some t → t.ServedOnce) {} as ↔
      step.Meets (fun s a => ¬ s.Overwrites a) {} as := by
  have hiff : ∀ (s : ZMQServer) (a : Action), s.Inv →
      ((∀ t, step s a = some t → t.ServedOnce) ↔ ¬ s.Overwrites a) := by
    refine fun s a h => ⟨fun hall ho => ?_, fun hno t hstep => (inv_step h hno hstep).servedOnce⟩
    obtain ⟨t, hstep, hnot⟩ := not_servedOnce_of_overwrites h ho
    exact hnot (hall t hstep)
  exact Machine.meets_congr (P := Inv)
    (fun s a t h hC hstep => inv_step h ((hiff s a h).1 hC) hstep) hiff inv_init

/-- While the request of server "a" is being handled, one for server "b" comes in. -/
def secondServer : List Action :=
  [.startServer 0 "a", .startServer 1 "b", .poll, .recv [(0, "x")], .mark fun _ => none, .post,
    .collect, .poll, .recv [(1, "y")], .mark fun _ => none, .post, .handle "r", .reset, .collect,
    .reset]

/-- The server of that request listens again, and nobody has handled it: the task that was posted
for it finds nothing to collect. -/
theorem second_request_lost :
    ∃ s, step.run {} secondServer = some s ∧ s.Quiet ∧ ¬ s.ServedOnce := by
  have hsome : (step.run {} secondServer).map (fun s => (s.net, s.ui, s.tasks, s.handled,
      s.wire.arrived, s.context.map fun it => (it.zmqSocket, it.state))) =
      some (.idle, .idle, 0, [0], [0, 1], [(0, .listening), (1, .listening)]) := rfl
  obtain ⟨s, hrun, hs⟩ := Option.map_eq_some_iff.1 hsome
  simp only [Prod.mk.injEq] at hs
  obtain ⟨hnet, hui, htasks, hhandled, harr, hctx⟩ := hs
  refine ⟨s, hrun, ⟨by rw [hnet]; rfl, by simp [hnet], hui, htasks⟩, fun honce => ?_⟩
  have hmem : ((1, .listening) : Nat × ServerState) ∈
      s.context.map fun it => (it.zmqSocket, it.state) := by
    rw [hctx]
    simp
  obtain ⟨it, hit, heq⟩ := List.mem_map.1 hmem
  obtain ⟨hk, hl⟩ := Prod.mk.inj heq
  have hone := (honce.listening it hit hl 1 (by rw [harr, hk]; rfl) (by simp [hnet])).1
  rw [hhandled] at hone
  simp at hone

end ZMQServer

end Dcfpe
