import Dcfpe.Dpe.Cluster
import Mathlib.Data.List.Perm.Basic

/-!
# Sockets

Every request is sent from a socket made for it, and closed with it.  So a worker and a socket name
at most one message on the wire, request or reply, and at most one entry of the worker's
`context_`: `Wired` says so, and every step keeps it.
-/

set_option autoImplicit false

namespace Dcfpe

namespace Worker

variable {flags : Flags} {timing : Timing}

/-- `t` has sent `out` and made a new socket for each of the requests. -/
structure Sent (w t : Worker) (out : List Outgoing) : Prop where
  context : ∃ new, t.context = w.context ++ new ∧ new.map Prod.fst = out.map Outgoing.socket
  sockets : out.map Outgoing.socket = List.range' w.nextSocket out.length
  nextSocket : t.nextSocket = w.nextSocket + out.length

theorem Sent.refl {w t : Worker} (hc : t.context = w.context) (hn : t.nextSocket = w.nextSocket) :
    Sent w t [] :=
  ⟨⟨[], by simp [hc], rfl⟩, rfl, hn⟩

theorem Sent.trans {w t u : Worker} {out out' : List Outgoing} (h : Sent w t out)
    (h' : Sent t u out') : Sent w u (out ++ out') := by
  obtain ⟨new, hnew, hfst⟩ := h.context
  obtain ⟨new', hnew', hfst'⟩ := h'.context
  refine ⟨⟨new ++ new', by rw [hnew', hnew, List.append_assoc], ?_⟩, ?_, ?_⟩
  · rw [List.map_append, List.map_append, hfst, hfst']
  · rw [List.map_append, h.sockets, h'.sockets, h.nextSocket, List.length_append,
      List.range'_append_1]
  · rw [h'.nextSocket, h.nextSocket, List.length_append, Nat.add_assoc]

theorem sent_sendRequest (now : Int) (sent : Bool) (req : Request) (callback : Callback)
    {w v : Worker} (hc : v.context = w.context) (hn : v.nextSocket = w.nextSocket) :
    Sent w (sendRequest now sent req callback v).1 (sendRequest now sent req callback v).2 := by
  rcases sent with _ | _
  · exact Sent.refl hc hn
  · refine ⟨⟨[(v.nextSocket, callback)], ?_, rfl⟩, ?_, ?_⟩
    · rw [← hc]
      rfl
    · rw [← hn]
      rfl
    · rw [← hn]
      rfl

theorem sent_run (myIp : String) (now : Int) (sent : Nat → Bool) :
    Sent (beforeStart flags myIp) (run flags myIp now sent).1 (run flags myIp now sent).2 := by
  have h : ∀ (i : Nat) (w : Worker),
      Sent w (startLoop flags now sent i w).1 (startLoop flags now sent i w).2 := by
    intro i w
    induction i with
    | zero => exact Sent.refl rfl rfl
    | succ i ih => exact ih.trans (sent_sendRequest _ _ _ _ rfl rfl)
  exact h flags.threadNumber _

/-- The sockets in `context_` are distinct and were all made, and a computed batch has a result for
every task. -/
structure Tidy (w : Worker) : Prop where
  nodup : (w.context.map Prod.fst).Nodup
  made : ∀ s ∈ w.context.map Prod.fst, s < w.nextSocket
  sized : ∀ b ∈ w.posted, b.result.length = b.tasks.length ∧ b.timeUsage.length = b.tasks.length

theorem Tidy.sent {w t : Worker} {out : List Outgoing} (h : w.Tidy) (hs : Sent w t out)
    (hp : ∀ b ∈ t.posted, b ∈ w.posted) : t.Tidy := by
  obtain ⟨new, hnew, hfst⟩ := hs.context
  have hmem : ∀ s ∈ new.map Prod.fst, w.nextSocket ≤ s ∧ s < t.nextSocket := by
    intro s hs'
    rw [hfst, hs.sockets, List.mem_range'_1] at hs'
    rw [hs.nextSocket]
    exact hs'
  refine ⟨?_, fun s hs' => ?_, fun b hb => h.sized b (hp b hb)⟩
  · rw [hnew, List.map_append, List.nodup_append]
    refine ⟨h.nodup, ?_, fun s hs' s' hn => ?_⟩
    · rw [hfst, hs.sockets]
      exact List.nodup_range'
    · have h1 := h.made s hs'
      have h2 := (hmem s' hn).1
      omega
  · rw [hnew, List.map_append, List.mem_append] at hs'
    rcases hs' with hs' | hs'
    · have h1 := h.made s hs'
      have h2 := hs.nextSocket
      omega
    · exact (hmem s hs').2

theorem tidy_moved {w t : Worker} {a : Action} {out : List Outgoing} (h : w.Tidy)
    (hm : Moved flags timing w a t out) :
    t.Tidy ∧ out.map Outgoing.socket = List.range' w.nextSocket out.length ∧
      t.nextSocket = w.nextSocket + out.length := by
  have hpop : ∀ {task : UITask} {rest : List UITask}, w.uiTasks = task :: rest →
      ∀ b ∈ rest.flatMap UITask.batches, b ∈ w.posted := by
    intro task rest hq b hb
    rw [posted, hq, List.flatMap_cons]
    exact List.mem_append_right _ hb
  rcases hm with hk | ⟨hk, hr, hu⟩ | ⟨hq, hl, ha⟩ | ⟨hq, hl⟩ | ⟨hq, hl⟩ | ⟨hq, hl, he⟩ |
    ⟨hq, hl, he⟩ | @⟨now, sent, size, rep, rest, hq, hl, he⟩ | @⟨now, sent, b, rest, hq, hl, ha⟩ |
    ⟨hq, hquit, hl⟩
  · have hsub := List.eraseIdx_sublist w.context
    refine ⟨⟨h.nodup.sublist ((hsub _).map _), fun s hs => h.made s (((hsub _).map _).subset hs),
      fun b hb => h.sized b ?_⟩, rfl, rfl⟩
    simpa [posted] using hb
  · refine ⟨⟨h.nodup, h.made, fun b hb => ?_⟩, rfl, rfl⟩
    simp only [posted, List.flatMap_append, List.flatMap_cons, List.flatMap_nil, UITask.batches,
      List.append_nil, List.mem_append, List.mem_singleton] at hb
    rcases hb with hb | rfl
    · exact h.sized b hb
    · exact ⟨hr, hu⟩
  · exact ⟨h.sent (Sent.refl rfl rfl) (hpop hq), rfl, rfl⟩
  · refine ⟨h.sent (Sent.refl rfl rfl) fun b hb => hpop hq b ?_, rfl, rfl⟩
    simpa [posted] using hb
  · exact ⟨h.sent (Sent.refl rfl rfl) (hpop hq), rfl, rfl⟩
  · split
    · refine ⟨h.sent (Sent.refl rfl rfl) fun b hb => hpop hq b ?_, rfl, rfl⟩
      simpa [posted, willExitDpe] using hb
    · exact ⟨h.sent (Sent.refl rfl rfl) (hpop hq), rfl, rfl⟩
  · exact ⟨h.sent (Sent.refl rfl rfl) (hpop hq), rfl, rfl⟩
  · have hs : Sent w (getNextTask flags now sent size { w with uiTasks := rest }).1
        (getNextTask flags now sent size { w with uiTasks := rest }).2 :=
      sent_sendRequest _ _ _ _ rfl rfl
    refine ⟨h.sent hs fun b hb => hpop hq b ?_, hs.sockets, hs.nextSocket⟩
    simpa [posted, getNextTask] using hb
  · have hs : Sent w (finishExecuteTaskImpl flags timing now sent b { w with uiTasks := rest }).1
        (finishExecuteTaskImpl flags timing now sent b { w with uiTasks := rest }).2 :=
      sent_sendRequest _ _ _ _ rfl rfl
    refine ⟨h.sent hs fun b' hb => hpop hq b' ?_, hs.sockets, hs.nextSocket⟩
    simpa [posted, finishExecuteTaskImpl] using hb
  · exact ⟨⟨List.nodup_nil, by simp, fun b hb => h.sized b hb⟩, rfl, rfl⟩

/-- Entries of `context_` are made by the worker, and taken out by the network thread. -/
theorem context_moved {w t : Worker} {a : Action} {out : List Outgoing}
    (hm : Moved flags timing w a t out) (hend : a ≠ .endMainLoop) :
    (∃ k rep, a = .answer k rep ∧ t.context = w.context.eraseIdx k) ∨
      ∃ new, t.context = w.context ++ new := by
  rcases hm with hk | ⟨hk, hr, hu⟩ | ⟨hq, hl, ha⟩ | ⟨hq, hl⟩ | ⟨hq, hl⟩ | ⟨hq, hl, he⟩ |
    ⟨hq, hl, he⟩ | @⟨now, sent, size, rep, rest, hq, hl, he⟩ | @⟨now, sent, b, rest, hq, hl, ha⟩ |
    ⟨hq, hquit, hl⟩
  · exact .inl ⟨_, _, rfl, rfl⟩
  · exact .inr ⟨[], (List.append_nil _).symm⟩
  · exact .inr ⟨[], (List.append_nil _).symm⟩
  · exact .inr ⟨[], (List.append_nil _).symm⟩
  · exact .inr ⟨[], (List.append_nil _).symm⟩
  · exact .inr ⟨[], by split <;> exact (List.append_nil _).symm⟩
  · exact .inr ⟨[], (List.append_nil _).symm⟩
  · have hs : Sent w (getNextTask flags now sent size { w with uiTasks := rest }).1
        (getNextTask flags now sent size { w with uiTasks := rest }).2 :=
      sent_sendRequest _ _ _ _ rfl rfl
    exact .inr (hs.context.imp fun _ h => h.1)
  · have hs : Sent w (finishExecuteTaskImpl flags timing now sent b { w with uiTasks := rest }).1
        (finishExecuteTaskImpl flags timing now sent b { w with uiTasks := rest }).2 :=
      sent_sendRequest _ _ _ _ rfl rfl
    exact .inr (hs.context.imp fun _ h => h.1)
  · exact absurd rfl hend

theorem posted_run (myIp : String) (now : Int) (sent : Nat → Bool) :
    (run flags myIp now sent).1.posted = [] := by
  have h : ∀ (i : Nat) (w : Worker), (startLoop flags now sent i w).1.posted = w.posted := by
    intro i w
    induction i with
    | zero => rfl
    | succ i ih => simpa [startLoop, getNextTask, posted] using ih
  rw [run, start, h]
  exact (fresh_beforeStart flags myIp).posted

theorem tidy_run (myIp : String) (now : Int) (sent : Nat → Bool) :
    (run flags myIp now sent).1.Tidy := by
  have hfresh := fresh_beforeStart flags myIp
  have h0 : (beforeStart flags myIp).Tidy :=
    ⟨by simp [hfresh.context], by simp [hfresh.context], by simp [hfresh.posted]⟩
  refine h0.sent (sent_run myIp now sent) ?_
  simp [posted_run]

end Worker

/-- The worker and the socket a request comes from. -/
def Packet.key (p : Packet) : Nat × Nat := (p.worker, p.socket)

/-- The worker and the socket a reply goes to. -/
def Reply.key (r : Reply) : Nat × Nat := (r.worker, r.socket)

namespace Cluster

variable (tf : TextFormat) (timing : Timing)

/-- The sockets with a message on the wire. -/
def keys (c : Cluster) : List (Nat × Nat) :=
  c.toMaster.map Packet.key ++ c.toWorker.map Reply.key

/-- Every message on the wire has a socket of its own, made by its worker. -/
structure Wired (c : Cluster) : Prop where
  nodup : c.keys.Nodup
  made : ∀ key ∈ c.keys, ∃ site, c.workers[key.1]? = some site ∧ key.2 < site.node.nextSocket
  tidy : ∀ site ∈ c.workers, site.node.Tidy

/-- Messages may be taken off the wire, and a request may be turned into its reply. -/
theorem Wired.keys_perm {c c' : Cluster} (h : Wired c) {ks : List (Nat × Nat)}
    (hk : ks.Sublist c.keys) (hp : c'.keys.Perm ks) (hw : c'.workers = c.workers) : Wired c' :=
  ⟨hp.nodup_iff.2 (h.nodup.sublist hk),
    by rw [hw]; exact fun key hm => h.made key (hk.subset (hp.mem_iff.1 hm)),
    by rw [hw]; exact h.tidy⟩

theorem mem_map_key_post {i : Nat} {out : List Outgoing} {n : Nat}
    (hs : out.map Outgoing.socket = List.range' n out.length) {key : Nat × Nat} :
    key ∈ (post i out).map Packet.key ↔ key.1 = i ∧ n ≤ key.2 ∧ key.2 < n + out.length := by
  have hk : (post i out).map Packet.key = (out.map Outgoing.socket).map fun s => (i, s) := by
    simp [post, Packet.key, Function.comp_def]
  rw [hk, hs, List.mem_map]
  simp only [List.mem_range'_1]
  refine ⟨?_, fun ⟨h1, h2⟩ => ⟨key.2, h2, by rw [← h1]⟩⟩
  rintro ⟨s, hs, rfl⟩
  exact ⟨rfl, hs⟩

/-- A worker may put requests on the wire, from the sockets it has made for them. -/
theorem Wired.post {c c' : Cluster} (h : Wired c) {i n : Nat} {out : List Outgoing} {site : Site}
    (hs : out.map Outgoing.socket = List.range' n out.length)
    (hold : ∀ key ∈ c.keys, key.1 = i → key.2 < n)
    (hmade : ∀ key ∈ c.keys,
      ∃ site, c'.workers[key.1]? = some site ∧ key.2 < site.node.nextSocket)
    (hi : c'.workers[i]? = some site) (hn : site.node.nextSocket = n + out.length)
    (htidy : ∀ site ∈ c'.workers, site.node.Tidy)
    (hp : c'.toMaster = c.toMaster ++ Cluster.post i out)
    (hr : c'.toWorker.Sublist c.toWorker) : Wired c' := by
  have hperm : c'.keys.Perm ((Cluster.post i out).map Packet.key ++
      (c.toMaster.map Packet.key ++ c'.toWorker.map Reply.key)) := by
    rw [keys, hp, List.map_append, ← List.append_assoc]
    exact List.perm_append_comm.append_right _
  have hsub : (c.toMaster.map Packet.key ++ c'.toWorker.map Reply.key).Sublist c.keys :=
    (List.Sublist.refl _).append (hr.map _)
  refine ⟨hperm.nodup_iff.2 (List.nodup_append.2 ⟨?_, h.nodup.sublist hsub, ?_⟩),
    fun key hk => ?_, htidy⟩
  · have hk : (Cluster.post i out).map Packet.key =
        (out.map Outgoing.socket).map fun s => (i, s) := by
      simp [Cluster.post, Packet.key, Function.comp_def]
    rw [hk, hs]
    exact List.Nodup.map (fun a b hab => (Prod.mk.inj hab).2) List.nodup_range'
  · rintro key hk _ hk' rfl
    obtain ⟨h1, h2, -⟩ := (mem_map_key_post hs).1 hk
    have h3 := hold key (hsub.subset hk') h1
    omega
  · rcases List.mem_append.1 (hperm.mem_iff.1 hk) with hk | hk
    · obtain ⟨h1, -, h2⟩ := (mem_map_key_post hs).1 hk
      exact ⟨site, by rw [h1]; exact hi, by omega⟩
    · exact hmade key (hsub.subset hk)

/-- A step of worker `i`. -/
theorem Wired.actAt {c c' : Cluster} (h : Wired c) {i : Nat} {site : Site} {w : Worker}
    {a : Worker.Action} {out : List Outgoing} (hi : c.workers[i]? = some site)
    (hm : Worker.Moved site.flags timing site.node a w out)
    (hw : c'.workers = c.workers.set i { site with node := w })
    (hp : c'.toMaster = c.toMaster ++ Cluster.post i out)
    (hr : c'.toWorker.Sublist c.toWorker) : Wired c' := by
  obtain ⟨htidy, hs, hn⟩ := Worker.tidy_moved (h.tidy site (List.mem_of_getElem? hi)) hm
  obtain ⟨hlt, -⟩ := List.getElem?_eq_some_iff.1 hi
  have hi' : c'.workers[i]? = some { site with node := w } := by
    rw [hw, List.getElem?_set_self hlt]
  refine h.post hs (fun key hk h1 => ?_) (fun key hk => ?_) hi' hn (fun site' hs' => ?_) hp hr
  · obtain ⟨site', hs', hlt'⟩ := h.made key hk
    rw [h1, hi, Option.some_inj] at hs'
    rw [hs']
    exact hlt'
  · obtain ⟨site', hs', hlt'⟩ := h.made key hk
    by_cases h1 : key.1 = i
    · rw [h1, hi, Option.some_inj] at hs'
      rw [h1]
      refine ⟨_, hi', ?_⟩
      rw [← hs'] at hlt'
      show key.2 < w.nextSocket
      omega
    · rw [hw, List.getElem?_set_ne (Ne.symm h1)]
      exact ⟨site', hs', hlt'⟩
  · rw [hw] at hs'
    rcases List.mem_or_eq_of_mem_set hs' with hs' | rfl
    · exact h.tidy site' hs'
    · exact htidy

theorem wired_init (tasks : List Int) (readState : Bool) (file : StateFile) :
    Wired (init tf tasks readState file) :=
  ⟨List.nodup_nil, by simp [keys, init], by simp [init]⟩

theorem wired_step {c c' : Cluster} {a : Action} (h : Wired c)
    (hstep : step tf timing c a = some c') : Wired c' := by
  rcases stepped_of_step tf timing hstep with ⟨flags, myIp, now, sent⟩ |
    @⟨k, clk, responseTime, p, rep, hk, hm, hget, hne⟩ | hk | hk | ⟨hk, hj⟩ | ⟨hk, hj, hi, hm⟩ |
    ⟨hi, hm⟩ | ⟨hi, hm⟩ | ⟨hi, hm⟩ | ⟨hi, hm⟩
  · have hsent : Worker.Sent (Worker.beforeStart flags myIp) (Worker.run flags myIp now sent).1
        (Worker.run flags myIp now sent).2 := Worker.sent_run myIp now sent
    refine h.post (i := c.workers.length) hsent.sockets (fun key hk h1 => ?_) (fun key hk => ?_)
      (List.getElem?_concat_length ..) hsent.nextSocket (fun site hs => ?_) rfl
      (List.Sublist.refl _)
    · obtain ⟨site, hs, -⟩ := h.made key hk
      rw [h1] at hs
      simp at hs
    · obtain ⟨site, hs, hlt⟩ := h.made key hk
      refine ⟨site, ?_, hlt⟩
      rw [List.getElem?_append_left (List.getElem?_eq_some_iff.1 hs).1]
      exact hs
    · rcases List.mem_append.1 hs with hs | hs
      · exact h.tidy site hs
      · rw [List.mem_singleton.1 hs]
        exact Worker.tidy_run myIp now sent
  · refine h.keys_perm (List.Sublist.refl _) ?_ rfl
    obtain ⟨hlt, hget⟩ := List.getElem?_eq_some_iff.1 hk
    have hperm : (p :: c.toMaster.eraseIdx k).Perm c.toMaster := by
      rw [← hget]
      exact List.getElem_cons_eraseIdx_perm hlt
    have hkeys := (hperm.map Packet.key).append_right (c.toWorker.map Reply.key)
    refine List.Perm.trans ?_ hkeys
    simp only [keys, List.map_append, List.map_cons, List.map_nil, List.cons_append]
    rw [← List.append_assoc]
    exact List.perm_append_singleton _ _
  · exact h.keys_perm (((List.eraseIdx_sublist _ _).map _).append (List.Sublist.refl _))
      (List.Perm.refl _) rfl
  · exact h.keys_perm ((List.Sublist.refl _).append ((List.eraseIdx_sublist _ _).map _))
      (List.Perm.refl _) rfl
  · exact h.keys_perm ((List.Sublist.refl _).append ((List.eraseIdx_sublist _ _).map _))
      (List.Perm.refl _) rfl
  · exact h.actAt timing hi hm rfl rfl (List.eraseIdx_sublist _ _)
  · exact h.actAt timing hi hm rfl rfl (List.Sublist.refl _)
  · exact h.actAt timing hi hm rfl rfl (List.Sublist.refl _)
  · exact h.actAt timing hi hm rfl rfl (List.Sublist.refl _)
  · exact h.actAt timing hi hm rfl rfl (List.Sublist.refl _)

end Cluster

end Dcfpe
