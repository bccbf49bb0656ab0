import Dcfpe.Zmq.Client
import Mathlib.Data.List.Nodup
import Mathlib.Data.List.Perm.Subperm

/-!
# Every request is answered once

A call of `SendRequest` that returns true has left one `RequestContext`, and from then on its
callback is in one of three places: in `context_`, among the posted ones, or among the ones `Stop`
threw away (`answered_once`).  The places are kept by `Inv`, whose other half is about the sockets:
the ones in `context_` are distinct and owned by distinct calls, and what the network thread has
polled or received on is still in `context_`, because nobody else closes a socket while it runs.  So
what was received for a context is what is in `sockets` under its socket.
-/

set_option autoImplicit false

namespace Dcfpe

namespace ZMQClient

/-- What is filed under a call in a log. -/
def ofCall {β : Type} (n : Nat) (log : List (Nat × β)) : List β :=
  (log.filter (·.1 = n)).map Prod.snd

section Log

variable {β : Type} {n : Nat} {log log' : List (Nat × β)}

@[simp] theorem ofCall_append : ofCall n (log ++ log') = ofCall n log ++ ofCall n log' := by
  simp [ofCall]

theorem ofCall_eq_nil (h : n ∉ log.map Prod.fst) : ofCall n log = [] := by
  rw [ofCall, List.map_eq_nil_iff, List.filter_eq_nil_iff]
  intro p hp hn
  exact h (List.mem_map.2 ⟨p, hp, of_decide_eq_true hn⟩)

theorem ofCall_of_nodup (hnd : (log.map Prod.fst).Nodup) {v : β} (h : (n, v) ∈ log) :
    ofCall n log = [v] := by
  induction log with
  | nil => cases h
  | cons p log ih =>
    rw [List.map_cons, List.nodup_cons] at hnd
    rcases List.mem_cons.1 h with rfl | h
    · simpa [ofCall] using ofCall_eq_nil hnd.1
    · have hne : p.1 ≠ n := fun he => hnd.1 (List.mem_map.2 ⟨_, h, he.symm⟩)
      simpa [ofCall, hne] using ih hnd.2 h

end Log

/-! ## The loops of ProcessEvent -/

theorem lookup_foldl_insert {k : Nat} {signals : List (Nat × String)}
    (h : k ∉ signals.map Prod.fst) (sockets : AList fun _ : Nat => String) :
    (signals.foldl (fun sockets p => sockets.insert p.1 p.2) sockets).lookup k =
      sockets.lookup k := by
  induction signals generalizing sockets with
  | nil => rfl
  | cons p signals ih =>
    rw [List.map_cons, List.mem_cons, not_or] at h
    rw [List.foldl_cons, ih h.2, AList.lookup_insert_ne h.1]

theorem lookup_receive_of_mem {k : Nat} {data : String} {signals : List (Nat × String)}
    (hnd : (signals.map Prod.fst).Nodup) (h : (k, data) ∈ signals) :
    (receive signals).lookup k = some data := by
  rw [receive]
  generalize (∅ : AList fun _ : Nat => String) = sockets
  induction signals generalizing sockets with
  | nil => cases h
  | cons p signals ih =>
    rw [List.map_cons, List.nodup_cons] at hnd
    rcases List.mem_cons.1 h with rfl | h
    · rw [List.foldl_cons, lookup_foldl_insert hnd.1, AList.lookup_insert]
    · exact ih hnd.2 h _

theorem lookup_receive_of_not_mem {k : Nat} {signals : List (Nat × String)}
    (h : k ∉ signals.map Prod.fst) : (receive signals).lookup k = none :=
  lookup_foldl_insert h ∅

/-- The signalled sockets are some of the items, in their order. -/
theorem signalSockets_sublist (items : List Nat) (revents : List (Option String)) :
    ((signalSockets items revents).map Prod.fst).Sublist items := by
  induction items generalizing revents with
  | nil => exact List.nil_sublist _
  | cons k items ih =>
    rcases revents with _ | ⟨_ | data, revents⟩
    · exact List.nil_sublist _
    · exact (ih revents).cons k
    · exact (ih revents).cons_cons k

/-- How `ProcessEvent` answers a context, if it does. -/
inductive Answers (sockets : AList fun _ : Nat => String) (it : RequestContext) :
    ZMQResponse → Prop where
  | ok {data : String} (h : sockets.lookup it.zmqSocket = some data) :
      Answers sockets it { errorCode := .ok, data := data }
  | timeOut (h : sockets.lookup it.zmqSocket = none) (ht : it.timeOut > 0) :
      Answers sockets it { errorCode := .timeOut, data := "" }

theorem Answers.congr {sockets sockets' : AList fun _ : Nat => String} {it : RequestContext}
    {rep : ZMQResponse} (h : Answers sockets it rep)
    (heq : sockets'.lookup it.zmqSocket = sockets.lookup it.zmqSocket) :
    Answers sockets' it rep := by
  cases h with
  | ok h => exact .ok (heq.trans h)
  | timeOut h ht => exact .timeOut (heq.trans h) ht

/-- A context stays, with nothing received, or its callback gets one response. -/
theorem answer_spec (now : Int32) {context : List RequestContext}
    (hnd : (context.map RequestContext.zmqSocket).Nodup)
    (sockets : AList fun _ : Nat => String) :
    let r := answer now context sockets
    r.1.Sublist context ∧
      (context.map RequestContext.callback).Perm
        (r.1.map RequestContext.callback ++ r.2.map Prod.fst) ∧
      (∀ it ∈ r.1, sockets.lookup it.zmqSocket = none) ∧
      ∀ p ∈ r.2, ∃ it ∈ context, it.callback = p.1 ∧ Answers sockets it p.2 := by
  induction context generalizing sockets with
  | nil => exact ⟨List.nil_sublist _, List.Perm.refl _, by simp [answer], by simp [answer]⟩
  | cons it context ih =>
    rw [List.map_cons, List.nodup_cons] at hnd
    cases hl : sockets.lookup it.zmqSocket with
    | some data =>
      obtain ⟨hsub, hperm, hkept, hresp⟩ := ih hnd.2 (sockets.insert it.zmqSocket "")
      have hother : ∀ jt ∈ context, (sockets.insert it.zmqSocket "").lookup jt.zmqSocket =
          sockets.lookup jt.zmqSocket := fun jt hjt =>
        AList.lookup_insert_ne fun he => hnd.1 (List.mem_map.2 ⟨jt, hjt, he⟩)
      simp only [answer, hl]
      refine ⟨hsub.cons it, ?_, fun jt hjt => ?_, fun p hp => ?_⟩
      · exact (hperm.cons it.callback).trans List.perm_middle.symm
      · rw [← hother jt (hsub.subset hjt)]
        exact hkept jt hjt
      · rcases List.mem_cons.1 hp with rfl | hp
        · exact ⟨it, List.mem_cons_self, rfl, .ok hl⟩
        · obtain ⟨jt, hjt, hcallback, hans⟩ := hresp p hp
          exact ⟨jt, List.mem_cons_of_mem _ hjt, hcallback, hans.congr (hother jt hjt).symm⟩
    | none =>
      obtain ⟨hsub, hperm, hkept, hresp⟩ := ih hnd.2 sockets
      simp only [answer, hl]
      have hresp' : ∀ p ∈ (answer now context sockets).2,
          ∃ jt ∈ it :: context, jt.callback = p.1 ∧ Answers sockets jt p.2 := fun p hp => by
        obtain ⟨jt, hjt, h⟩ := hresp p hp
        exact ⟨jt, List.mem_cons_of_mem _ hjt, h⟩
      split
      · next hold =>
        refine ⟨hsub.cons it, ?_, hkept, fun p hp => ?_⟩
        · exact (hperm.cons it.callback).trans List.perm_middle.symm
        · rcases List.mem_cons.1 hp with rfl | hp
          · exact ⟨it, List.mem_cons_self, rfl, .timeOut hl hold.1⟩
          · exact hresp' p hp
      · refine ⟨hsub.cons_cons it, hperm.cons it.callback, fun jt hjt => ?_, hresp'⟩
        rcases List.mem_cons.1 hjt with rfl | hjt
        · exact hl
        · exact hkept jt hjt

/-! ## The invariant -/

/-- The `sockets` of a `ProcessEvent` under way. -/
def NetThread.sockets : NetThread → AList fun _ : Nat => String
  | .processing _ sockets => sockets
  | _ => ∅

/-- The sockets the network thread has polled, or received on. -/
@[simp] def NetThread.busy : NetThread → List Nat
  | .polling _ items _ => items
  | .processing _ sockets => sockets.keys
  | _ => []

theorem mem_busy_of_mem_sockets {net : NetThread} {k : Nat} (h : k ∈ net.sockets) :
    k ∈ net.busy := by
  cases net with
  | processing => exact AList.mem_keys.1 h
  | none => exact absurd h (AList.notMem_empty k)
  | looping => exact absurd h (AList.notMem_empty k)
  | polling => exact absurd h (AList.notMem_empty k)
  | exited => exact absurd h (AList.notMem_empty k)

/-- The call of a `SendRequest` that has not pushed its socket. -/
@[simp] def UIThread.call : UIThread → List Nat
  | .sending _ callback _ _ => [callback]
  | _ => []

/-- The response is what the call's own socket received, or a time out for which it has asked. -/
def Right (s : ZMQClient) (n : Nat) (rep : ZMQResponse) : Prop :=
  (∃ data, ofCall n s.received = [data] ∧ rep = { errorCode := .ok, data := data }) ∨
  ofCall n s.received = [] ∧ rep = { errorCode := .timeOut, data := "" } ∧
    ∀ timeout, (n, timeout) ∈ s.accepted → timeout > 0

structure Inv (s : ZMQClient) : Prop where
  nodup : s.openSockets.Nodup
  numbers : (s.ui.call ++ s.accepted.map Prod.fst).Nodup
  past : ∀ n ∈ s.ui.call ++ s.accepted.map Prod.fst, n < s.calls
  /-- An accepted call is in one of the three places. -/
  placed : (s.accepted.map Prod.fst).Perm
    (s.context.map RequestContext.callback ++ s.posted.map Prod.fst ++ s.discarded)
  owned : ∀ it ∈ s.context, s.owner it.zmqSocket = it.callback
  sending : ∀ zmqSocket callback address timeout,
    s.ui = .sending zmqSocket callback address timeout → s.owner zmqSocket = callback
  timed : ∀ it ∈ s.context, it.timeOut > 0 → ∀ timeout, (it.callback, timeout) ∈ s.accepted →
    timeout > 0
  /-- Only the network thread closes sockets, and not the ones it has polled. -/
  busy : s.net.busy ⊆ s.context.map RequestContext.zmqSocket
  busyNodup : s.net.busy.Nodup
  received : ∀ it ∈ s.context,
    ofCall it.callback s.received = (s.net.sockets.lookup it.zmqSocket).toList
  receivedAccepted : ∀ p ∈ s.received, p.1 ∈ s.accepted.map Prod.fst
  right : ∀ p ∈ s.posted, s.Right p.1 p.2
  /-- `Start` finds no thread. -/
  threadless : s.status = .prepare → s.ui ≠ .starting → s.net = .none

theorem inv_empty : Inv {} := by
  refine ⟨?_, ?_, ?_, ?_, ?_, ?_, ?_, ?_, ?_, ?_, ?_, ?_, ?_⟩ <;> simp [openSockets]

variable {s : ZMQClient}

theorem Inv.placedNodup (h : s.Inv) :
    (s.context.map RequestContext.callback ++ s.posted.map Prod.fst ++ s.discarded).Nodup :=
  h.placed.nodup (List.nodup_append.1 h.numbers).2.1

theorem Inv.callbackNodup (h : s.Inv) : (s.context.map RequestContext.callback).Nodup :=
  (List.nodup_append.1 (List.nodup_append.1 h.placedNodup).1).1

theorem Inv.socketNodup (h : s.Inv) : (s.context.map RequestContext.zmqSocket).Nodup :=
  (List.nodup_append.1 h.nodup).1

theorem Inv.accepted_of_mem (h : s.Inv) {it : RequestContext} (hit : it ∈ s.context) :
    it.callback ∈ s.accepted.map Prod.fst :=
  h.placed.mem_iff.2 (List.mem_append_left _ (List.mem_append_left _ (List.mem_map_of_mem hit)))

theorem Inv.accepted_of_posted (h : s.Inv) {p : Nat × ZMQResponse} (hp : p ∈ s.posted) :
    p.1 ∈ s.accepted.map Prod.fst :=
  h.placed.mem_iff.2 (List.mem_append_left _ (List.mem_append_right _ (List.mem_map_of_mem hp)))

/-- A step that only moves the threads. -/
theorem Inv.control (h : s.Inv) {status : Status} {quitFlag : Bool} {ui : UIThread}
    {net : NetThread} (hui : ui = s.ui ∨ ui.pending = [] ∧ ui.call = [])
    (hbusy : net.busy ⊆ s.context.map RequestContext.zmqSocket) (hnd : net.busy.Nodup)
    (hsockets : net.sockets = s.net.sockets)
    (hthread : status = .prepare → ui ≠ .starting → net = .none) :
    Inv { s with status := status, quitFlag := quitFlag, ui := ui, net := net } := by
  have hpending : ui.pending.Sublist s.ui.pending := by
    rcases hui with rfl | ⟨h0, -⟩
    · exact List.Sublist.refl _
    · exact h0 ▸ List.nil_sublist _
  have hcall : ui.call.Sublist s.ui.call := by
    rcases hui with rfl | ⟨-, h0⟩
    · exact List.Sublist.refl _
    · exact h0 ▸ List.nil_sublist _
  refine ⟨h.nodup.sublist (hpending.append_left _), h.numbers.sublist (hcall.append_right _),
    fun n hn => h.past n ((hcall.append_right _).subset hn), h.placed, h.owned, ?_, h.timed, hbusy,
    hnd, fun it hit => ?_, h.receivedAccepted, h.right, hthread⟩
  · intro zmqSocket callback address timeout hs
    rcases hui with rfl | ⟨h0, -⟩
    · exact h.sending _ _ _ _ hs
    · have hs' : ui = .sending zmqSocket callback address timeout := hs
      rw [hs'] at h0
      cases h0
  · show _ = (net.sockets.lookup it.zmqSocket).toList
    rw [hsockets]
    exact h.received it hit

/-- A turn of the network thread that receives nothing. -/
theorem Inv.turn (h : s.Inv) {quitFlag : Bool} {net net' : NetThread} (hnet : s.net = net)
    (hrun : net ≠ .none) (hsockets : net.sockets = net'.sockets)
    (hbusy : net'.busy ⊆ s.context.map RequestContext.zmqSocket) (hnd : net'.busy.Nodup) :
    Inv { s with quitFlag := quitFlag, net := net' } := by
  refine h.control (.inl rfl) hbusy hnd (by rw [hnet, hsockets]) fun hp hui => ?_
  exact absurd (hnet.symm.trans (h.threadless hp hui)) hrun

theorem Inv.zmqSocket (h : s.Inv) (hui : s.ui = .idle) {handle : Nat}
    (hfresh : handle ∉ s.openSockets) (address : String) (timeout : Int32) :
    Inv { s with
      ui := .sending handle s.calls address timeout
      calls := s.calls + 1
      owner := Function.update s.owner handle s.calls } := by
  have hnot : handle ∉ s.context.map RequestContext.zmqSocket := fun hm =>
    hfresh (List.mem_append_left _ hm)
  have hnumbers : (s.accepted.map Prod.fst).Nodup := (List.nodup_append.1 h.numbers).2.1
  have hpast : ∀ n ∈ s.accepted.map Prod.fst, n < s.calls := fun n hn =>
    h.past n (List.mem_append_right _ hn)
  refine ⟨?_, ?_, fun n hn => ?_, h.placed, fun it hit => ?_, ?_, h.timed, h.busy, h.busyNodup,
    h.received, h.receivedAccepted, h.right, fun hp _ => ?_⟩
  · refine List.nodup_append.2 ⟨h.socketNodup, List.nodup_singleton _, ?_⟩
    rintro k hk _ hk' rfl
    exact hnot (List.mem_singleton.1 hk' ▸ hk)
  · exact List.nodup_cons.2 ⟨fun hm => Nat.lt_irrefl _ (hpast _ hm), hnumbers⟩
  · rcases List.mem_cons.1 hn with rfl | hn
    · exact Nat.lt_succ_self _
    · exact Nat.lt_succ_of_lt (hpast n hn)
  · have hne : it.zmqSocket ≠ handle := fun he => hnot (he ▸ List.mem_map_of_mem hit)
    exact (Function.update_of_ne hne _ _).trans (h.owned it hit)
  · intro k n a t hs
    obtain ⟨rfl, rfl, -, -⟩ := UIThread.sending.inj hs
    exact Function.update_self _ _ _
  · exact h.threadless hp (by rw [hui]; nofun)

theorem Inv.push (h : s.Inv) {zmqSocket callback : Nat} {address : String} {timeout : Int32}
    (hui : s.ui = .sending zmqSocket callback address timeout) (now : Int32) :
    (s.pushRequest zmqSocket callback address timeout now).Inv := by
  have hnd : (s.context.map RequestContext.zmqSocket ++ [zmqSocket]).Nodup := by
    simpa [openSockets, hui] using h.nodup
  have hnumbers : (callback :: s.accepted.map Prod.fst).Nodup := by simpa [hui] using h.numbers
  have hpast : ∀ n ∈ callback :: s.accepted.map Prod.fst, n < s.calls := by
    simpa [hui] using h.past
  have hnew : callback ∉ s.accepted.map Prod.fst := (List.nodup_cons.1 hnumbers).1
  have hclosed : zmqSocket ∉ s.net.busy := fun hm =>
    (List.nodup_append.1 hnd).2.2 _ (h.busy hm) _ (List.mem_singleton_self _) rfl
  -- no accepted call is the new one
  have hold : ∀ {n t}, (n, t) ∈ s.accepted ++ [(callback, timeout)] →
      n ∈ s.accepted.map Prod.fst → (n, t) ∈ s.accepted := by
    intro n t hacc hn
    refine (List.mem_append.1 hacc).resolve_right fun hacc => ?_
    exact hnew ((Prod.mk.inj (List.mem_singleton.1 hacc)).1 ▸ hn)
  have htime : ∀ {t}, (callback, t) ∈ s.accepted ++ [(callback, timeout)] → t = timeout := by
    intro t hacc
    rcases List.mem_append.1 hacc with hacc | hacc
    · exact absurd (List.mem_map_of_mem hacc) hnew
    · exact (Prod.mk.inj (List.mem_singleton.1 hacc)).2
  refine ⟨?_, ?_, fun n hn => ?_, ?_, fun it hit => ?_, fun _ _ _ _ hs => ?_,
    fun it hit ht t hacc => ?_, fun k hk => ?_, h.busyNodup, fun it hit => ?_, fun p hp => ?_,
    fun p hp => ?_, fun hs _ => ?_⟩
  · simpa [openSockets, pushRequest] using hnd
  · simp only [pushRequest, UIThread.call, List.nil_append, List.map_append, List.map_cons,
      List.map_nil]
    exact (List.perm_append_singleton _ _).nodup_iff.2 hnumbers
  · refine hpast n ?_
    simpa [pushRequest, or_comm] using hn
  · rw [List.perm_iff_count]
    intro n
    have hcount := List.perm_iff_count.1 h.placed n
    simp only [pushRequest, List.map_append, List.count_append, List.map_cons,
      List.map_nil] at hcount ⊢
    omega
  · rcases List.mem_append.1 hit with hit | hit
    · exact h.owned it hit
    · rw [List.mem_singleton.1 hit]
      exact h.sending _ _ _ _ hui
  · cases hs
  · rcases List.mem_append.1 hit with hit | hit
    · exact h.timed it hit ht t (hold hacc (h.accepted_of_mem hit))
    · rw [List.mem_singleton.1 hit] at ht hacc
      rw [htime hacc]
      by_contra hle
      simp [if_neg hle] at ht
  · rw [pushRequest, List.map_append]
    exact List.mem_append_left _ (h.busy hk)
  · rcases List.mem_append.1 hit with hit | hit
    · exact h.received it hit
    · -- nothing can have been received on a socket that was not in `context_`
      rw [List.mem_singleton.1 hit]
      have hnone : s.net.sockets.lookup zmqSocket = none := by
        rw [AList.lookup_eq_none]
        exact fun hm => hclosed (mem_busy_of_mem_sockets hm)
      have hnil : ofCall callback s.received = [] := ofCall_eq_nil fun hm => by
        obtain ⟨p, hp, rfl⟩ := List.mem_map.1 hm
        exact hnew (h.receivedAccepted p hp)
      show ofCall callback s.received = (s.net.sockets.lookup zmqSocket).toList
      rw [hnil, hnone, Option.toList_none]
  · rw [pushRequest, List.map_append]
    exact List.mem_append_left _ (h.receivedAccepted p hp)
  · refine (h.right p hp).imp_right fun ⟨hnil, hrep, ht⟩ => ⟨hnil, hrep, fun t hacc => ?_⟩
    exact ht t (hold hacc (h.accepted_of_posted hp))
  · exact h.threadless hs (by rw [hui]; nofun)

/-- `zmq_poll` returns and the signalled sockets are read: each is still that of one context. -/
theorem Inv.ready (h : s.Inv) {id : Int32} {items : List Nat} {timeout : Int32}
    (hnet : s.net = .polling id items timeout) (revents : List (Option String)) :
    let signals := signalSockets items revents
    Inv { s with
      received := s.received ++ signals.map fun p => (s.owner p.1, p.2)
      net := .processing id (receive signals) } := by
  intro signals
  have hitems : items ⊆ s.context.map RequestContext.zmqSocket := by simpa [hnet] using h.busy
  have hsub : (signals.map Prod.fst).Sublist items := signalSockets_sublist items revents
  have hnd : (signals.map Prod.fst).Nodup := by
    have hnodup := h.busyNodup
    rw [hnet] at hnodup
    exact hsub.nodup hnodup
  have hkeys : (receive signals).keys ⊆ items := by
    intro k hk
    by_contra hni
    have hnot : k ∉ signals.map Prod.fst := fun hm => hni (hsub.subset hm)
    exact AList.lookup_eq_none.1 (lookup_receive_of_not_mem hnot) (AList.mem_keys.2 hk)
  have howner :
      ∀ p ∈ signals, ∃ it ∈ s.context, it.zmqSocket = p.1 ∧ s.owner p.1 = it.callback := by
    intro p hp
    obtain ⟨it, hit, hk⟩ := List.mem_map.1 (hitems (hsub.subset (List.mem_map_of_mem hp)))
    exact ⟨it, hit, hk, hk ▸ h.owned it hit⟩
  -- distinct sockets in `context_` have distinct owners
  have hinj : ∀ it ∈ s.context, ∀ p ∈ signals, s.owner p.1 = it.callback → p.1 = it.zmqSocket := by
    intro it hit p hp ho
    obtain ⟨jt, hjt, hk, ho'⟩ := howner p hp
    rw [← hk, List.inj_on_of_nodup_map h.callbackNodup hjt hit (ho'.symm.trans ho)]
  refine ⟨h.nodup, h.numbers, h.past, h.placed, h.owned, h.sending, h.timed,
    fun k hk => hitems (hkeys hk), (receive signals).keys_nodup, fun it hit => ?_, fun p hp => ?_,
    fun p hp => ?_, fun hp hui => ?_⟩
  · have hold : ofCall it.callback s.received = [] := by
      rw [h.received it hit, hnet]
      rfl
    show ofCall it.callback (s.received ++ signals.map fun p => (s.owner p.1, p.2)) =
      ((receive signals).lookup it.zmqSocket).toList
    rw [ofCall_append, hold, List.nil_append]
    by_cases hm : it.zmqSocket ∈ signals.map Prod.fst
    · obtain ⟨⟨k, data⟩, hp, hk⟩ := List.mem_map.1 hm
      obtain rfl : k = it.zmqSocket := hk
      rw [lookup_receive_of_mem hnd hp, Option.toList_some]
      refine ofCall_of_nodup ?_ (List.mem_map.2 ⟨_, hp, by rw [h.owned it hit]⟩)
      rw [List.map_map]
      refine (List.Nodup.of_map _ hnd).map_on fun p hp q hq ho => ?_
      obtain ⟨jt, hjt, hk, ho'⟩ := howner p hp
      have hk' : q.1 = jt.zmqSocket := hinj jt hjt q hq (ho.symm.trans ho')
      exact List.inj_on_of_nodup_map hnd hp hq (hk.symm.trans hk'.symm)
    · rw [lookup_receive_of_not_mem hm, Option.toList_none]
      refine ofCall_eq_nil fun hc => ?_
      rw [List.map_map] at hc
      obtain ⟨p, hp, ho⟩ := List.mem_map.1 hc
      exact hm (List.mem_map.2 ⟨p, hp, hinj it hit p hp ho⟩)
  · rcases List.mem_append.1 hp with hp | hp
    · exact h.receivedAccepted p hp
    · obtain ⟨q, hq, rfl⟩ := List.mem_map.1 hp
      obtain ⟨it, hit, -, ho⟩ := howner q hq
      exact ho ▸ h.accepted_of_mem hit
  · -- a call that has been answered has no socket any more
    have hnone : ofCall p.1 (signals.map fun p => (s.owner p.1, p.2)) = [] := by
      refine ofCall_eq_nil fun hc => ?_
      rw [List.map_map] at hc
      obtain ⟨q, hq, ho⟩ := List.mem_map.1 hc
      obtain ⟨it, hit, -, ho'⟩ := howner q hq
      have hdisj := (List.nodup_append.1 (List.nodup_append.1 h.placedNodup).1).2.2
      exact hdisj _ (List.mem_map_of_mem hit) _ (List.mem_map_of_mem hp) (ho'.symm.trans ho)
    simpa [Right, hnone] using h.right p hp
  · cases (h.threadless hp hui).symm.trans hnet

theorem Inv.processEvent (h : s.Inv) {id : Int32} {sockets : AList fun _ : Nat => String}
    (hnet : s.net = .processing id sockets) (now : Int32) :
    (s.processEvent id sockets now).Inv := by
  obtain ⟨hsub, hperm, hkept, hresp⟩ := answer_spec now h.socketNodup sockets
  have hreceived : ∀ it ∈ s.context,
      ofCall it.callback s.received = (sockets.lookup it.zmqSocket).toList := by
    intro it hit
    rw [h.received it hit, hnet]
    rfl
  have hsockets := hsub.map RequestContext.zmqSocket
  refine ⟨h.nodup.sublist (hsockets.append_right _), h.numbers, h.past, ?_,
    fun it hit => h.owned it (hsub.subset hit), h.sending,
    fun it hit => h.timed it (hsub.subset hit), List.nil_subset _, List.nodup_nil,
    fun it hit => ?_, h.receivedAccepted, fun p hp => ?_, fun hp hui => ?_⟩
  · rw [List.perm_iff_count]
    intro n
    have hcount := List.perm_iff_count.1 h.placed n
    have hcount' := List.perm_iff_count.1 hperm n
    simp only [ZMQClient.processEvent, List.map_append, List.count_append] at hcount hcount' ⊢
    omega
  · rw [ZMQClient.processEvent, hreceived it (hsub.subset hit), hkept it hit]
    rfl
  · rcases List.mem_append.1 hp with hp | hp
    · exact h.right p hp
    · obtain ⟨it, hit, hcallback, hans⟩ := hresp p hp
      obtain ⟨n, rep⟩ := p
      obtain rfl : it.callback = n := hcallback
      have hrec := hreceived it hit
      cases hans with
      | ok hl => exact .inl ⟨_, by rw [ZMQClient.processEvent, hrec, hl, Option.toList_some], rfl⟩
      | timeOut hl ht =>
        refine .inr ⟨?_, rfl, h.timed it hit ht⟩
        rw [ZMQClient.processEvent, hrec, hl, Option.toList_none]
  · cases (h.threadless hp hui).symm.trans hnet

theorem Inv.stopEnd (h : s.Inv) (next : Status) : (s.stopEnd next).Inv := by
  refine ⟨List.nodup_nil, (List.nodup_append.1 h.numbers).2.1,
    fun n hn => h.past n (List.mem_append_right _ hn), ?_, fun it hit => ?_, fun _ _ _ _ hs => ?_,
    fun it hit => ?_, List.nil_subset _, List.nodup_nil, fun it hit => ?_, h.receivedAccepted,
    h.right, fun _ _ => rfl⟩
  · rw [List.perm_iff_count]
    intro n
    have hcount := List.perm_iff_count.1 h.placed n
    simp only [ZMQClient.stopEnd, List.map_nil, List.count_append, List.count_nil] at hcount ⊢
    omega
  · cases hit
  · cases hs
  · cases hit
  · cases hit

theorem inv_step {t : ZMQClient} {a : Action} (h : s.Inv) (hstep : step s a = some t) : t.Inv := by
  -- what a thread that is not in `ProcessEvent` has of it
  have hquiet {net : NetThread} (hnet : s.net = net) (hs : net.sockets = ∅) :
      s.net.sockets = ∅ := hnet ▸ hs
  cases a with
  | zmqSocket handle address timeout =>
    simp only [step] at hstep
    split at hstep
    · next hui =>
      split at hstep
      · cases hstep
      · next hfresh =>
        obtain rfl := Option.some.inj hstep
        exact h.zmqSocket hui hfresh address timeout
    · cases hstep
  | sendFails =>
    simp only [step] at hstep
    split at hstep
    · next hui =>
      obtain rfl := Option.some.inj hstep
      refine h.control (.inr ⟨rfl, rfl⟩) h.busy h.busyNodup rfl fun hp _ => ?_
      exact h.threadless hp (by simp [hui])
    · cases hstep
  | push now =>
    simp only [step] at hstep
    split at hstep
    · next hui =>
      obtain rfl := Option.some.inj hstep
      exact h.push hui now
    · cases hstep
  | start =>
    simp only [step] at hstep
    split at hstep
    · next hui hstatus =>
      obtain rfl := Option.some.inj hstep
      have hnet := h.threadless hstatus (by simp [hui])
      exact h.control (.inr ⟨rfl, rfl⟩) (List.nil_subset _) List.nodup_nil
        (hquiet hnet rfl).symm fun _ hne => absurd rfl hne
    · cases hstep
  | startEnd result =>
    simp only [step] at hstep
    split at hstep
    · obtain rfl := Option.some.inj hstep
      exact h.control (.inr ⟨rfl, rfl⟩) h.busy h.busyNodup rfl fun hp _ => by cases hp
    · next hnet =>
      obtain rfl := Option.some.inj hstep
      exact h.control (.inr ⟨rfl, rfl⟩) (List.nil_subset _) List.nodup_nil
        (hquiet hnet rfl).symm fun _ _ => rfl
    · obtain rfl := Option.some.inj hstep
      exact h.control (.inr ⟨rfl, rfl⟩) h.busy h.busyNodup rfl fun hp _ => by cases hp
    · cases hstep
  | stop =>
    simp only [step] at hstep
    split at hstep
    · next hstatus =>
      obtain rfl := Option.some.inj hstep
      exact h.control (.inr ⟨rfl, rfl⟩) h.busy h.busyNodup rfl fun hp _ => by
        cases hstatus.symm.trans hp
    · cases hstep
  | stopEnd =>
    simp only [step] at hstep
    split at hstep
    · obtain rfl := Option.some.inj hstep
      exact h.stopEnd _
    · obtain rfl := Option.some.inj hstep
      exact h.stopEnd _
    · cases hstep
  | snapshot now =>
    simp only [step] at hstep
    split at hstep
    · next hnet =>
      split at hstep
      · obtain rfl := Option.some.inj hstep
        exact h.turn hnet (by simp) rfl (List.nil_subset _) List.nodup_nil
      · obtain rfl := Option.some.inj hstep
        exact h.turn hnet (by simp) rfl (List.Subset.refl _) h.socketNodup
    · cases hstep
  | poll result =>
    cases result with
    | error eterm =>
      simp only [step] at hstep
      split at hstep
      · next hnet =>
        obtain rfl := Option.some.inj hstep
        split
        · exact h.turn hnet (by simp) rfl (List.nil_subset _) List.nodup_nil
        · exact h.turn hnet (by simp) rfl (List.nil_subset _) List.nodup_nil
      · cases hstep
    | ready ctrl revents =>
      simp only [step] at hstep
      split at hstep
      · next hnet =>
        split at hstep
        · cases hstep
        split at hstep
        · split at hstep
          · obtain rfl := Option.some.inj hstep
            exact h.turn hnet (by simp) rfl (List.nil_subset _) List.nodup_nil
          · cases hstep
        · obtain rfl := Option.some.inj hstep
          exact h.ready hnet revents
      · cases hstep
  | processEvent now =>
    simp only [step] at hstep
    split at hstep
    · next hnet =>
      obtain rfl := Option.some.inj hstep
      exact h.processEvent hnet now
    · cases hstep

/-! ## The runs -/

/-- What has become of an accepted call. -/
inductive Fate (s : ZMQClient) (n : Nat) : Prop where
  | waits (hcontext : (s.context.map RequestContext.callback).count n = 1)
      (hposted : ofCall n s.posted = []) (hdiscarded : s.discarded.count n = 0) : Fate s n
  | answered {rep : ZMQResponse} (hcontext : (s.context.map RequestContext.callback).count n = 0)
      (hposted : ofCall n s.posted = [rep]) (hdiscarded : s.discarded.count n = 0)
      (hright : (∃ data, ofCall n s.received = [data] ∧ rep = { errorCode := .ok, data := data }) ∨
        ofCall n s.received = [] ∧ rep = { errorCode := .timeOut, data := "" }) : Fate s n
  | discarded (hcontext : (s.context.map RequestContext.callback).count n = 0)
      (hposted : ofCall n s.posted = []) (hdiscarded : s.discarded.count n = 1) : Fate s n

theorem ofCall_length {β : Type} (n : Nat) (log : List (Nat × β)) :
    (ofCall n log).length = (log.map Prod.fst).count n := by
  rw [ofCall, List.length_map, List.count, List.countP_map, List.countP_eq_length_filter]
  congr 2

theorem mem_of_mem_ofCall {β : Type} {n : Nat} {log : List (Nat × β)} {v : β}
    (h : v ∈ ofCall n log) : (n, v) ∈ log := by
  obtain ⟨⟨m, v⟩, hp, rfl⟩ := List.mem_map.1 h
  obtain ⟨hmem, hn⟩ := List.mem_filter.1 hp
  obtain rfl : m = n := of_decide_eq_true hn
  exact hmem

theorem Inv.fate (h : s.Inv) {n : Nat} (hn : n ∈ s.accepted.map Prod.fst) : s.Fate n := by
  have hone : (s.accepted.map Prod.fst).count n = 1 :=
    List.count_eq_one_of_mem (List.nodup_append.1 h.numbers).2.1 hn
  rw [h.placed.count_eq, List.count_append, List.count_append, ← ofCall_length] at hone
  have hnil : (ofCall n s.posted).length = 0 → ofCall n s.posted = [] := List.length_eq_zero_iff.1
  obtain hc | hp | hd : (s.context.map RequestContext.callback).count n = 1 ∨
    (ofCall n s.posted).length = 1 ∨ s.discarded.count n = 1 := by omega
  · exact .waits hc (hnil (by omega)) (by omega)
  · obtain ⟨rep, hrep⟩ := List.length_eq_one_iff.1 hp
    have hright := h.right (n, rep) (mem_of_mem_ofCall (hrep ▸ List.mem_singleton_self rep))
    exact .answered (by omega) hrep (by omega)
      (hright.imp_right fun ⟨hrec, hto, _⟩ => ⟨hrec, hto⟩)
  · exact .discarded (by omega) (hnil (by omega)) hd

/-- What has been discarded, and what has been accepted, stays so. -/
theorem log_step {t : ZMQClient} {a : Action} (hstep : step s a = some t) :
    s.discarded <+: t.discarded ∧ s.accepted <+: t.accepted := by
  have hrefl : s.discarded <+: s.discarded ∧ s.accepted <+: s.accepted :=
    ⟨List.prefix_refl _, List.prefix_refl _⟩
  revert hstep
  fun_cases step s a
  all_goals intro hstep
  all_goals try cases hstep
  all_goals try exact hrefl
  · exact ⟨List.prefix_refl _, List.prefix_append _ _⟩
  · exact ⟨List.prefix_append _ _, List.prefix_refl _⟩
  · exact ⟨List.prefix_append _ _, List.prefix_refl _⟩

theorem inv_run {as : List Action} (hrun : step.run {} as = some s) : s.Inv :=
  Machine.run_invariant (fun _ _ _ h hstep => inv_step h hstep) inv_empty hrun

theorem log_run {t : ZMQClient} {as : List Action} (hrun : step.run s as = some t) :
    s.discarded <+: t.discarded ∧ s.accepted <+: t.accepted := by
  refine Machine.run_invariant (P := fun u => s.discarded <+: u.discarded ∧
    s.accepted <+: u.accepted) (fun u a v hu hstep => ?_)
    ⟨List.prefix_refl _, List.prefix_refl _⟩ hrun
  exact ⟨hu.1.trans (log_step hstep).1, hu.2.trans (log_step hstep).2⟩

/-- **Every accepted request is answered once.**  In each state of a run of a client, each call of
`SendRequest` that has returned true is in `context_`, or its callback has been posted once, with
what its socket received or else with a time out, or it has been discarded; in the last case its
callback is not posted later either.  A request without a positive `timeout` does not time out. -/
theorem answered_once {as : List Action} (hrun : step.run {} as = some s) {n : Nat}
    {timeout : Int32} (hn : (n, timeout) ∈ s.accepted) :
    s.Fate n ∧
      (s.discarded.count n = 1 → ∀ (bs : List Action) (t : ZMQClient), step.run s bs = some t →
        ofCall n t.posted = []) ∧
      (timeout ≤ 0 → ∀ rep ∈ ofCall n s.posted, rep.errorCode ≠ .timeOut) := by
  have h := inv_run hrun
  have hmem : n ∈ s.accepted.map Prod.fst := List.mem_map_of_mem hn
  refine ⟨h.fate hmem, fun hd bs t ht => ?_, fun hle rep hrep hcode => ?_⟩
  · obtain ⟨hdisc, hacc⟩ := log_run ht
    have ht' : t.Inv := inv_run (Machine.run_append.2 ⟨s, hrun, ht⟩)
    have hle : s.discarded.count n ≤ t.discarded.count n := hdisc.sublist.count_le n
    cases ht'.fate ((hacc.map Prod.fst).subset hmem) with
    | waits _ hposted => exact hposted
    | answered _ _ hzero => omega
    | discarded _ hposted => exact hposted
  · rcases h.right (n, rep) (mem_of_mem_ofCall hrep) with ⟨data, -, rfl⟩ | ⟨-, -, hpos⟩
    · cases hcode
    · exact absurd (hpos timeout hn) (Int32.not_lt.2 hle)

/-- Two requests: the first is answered while the second is pushed; the second times out. -/
theorem answered_once_pair :
    let as : List Action := [.start, .startEnd .hello, .zmqSocket 10 "tcp://a" 0, .push 0,
      .snapshot 1, .zmqSocket 11 "tcp://a" 50, .poll (.ready none [some "reply"]), .push 2,
      .processEvent 3, .snapshot 4, .poll (.ready none [none]), .processEvent 60]
    ∃ s, step.run {} as = some s ∧ s.Fate 0 ∧ s.Fate 1 ∧
      s.posted = [(0, ⟨.ok, "reply"⟩), (1, ⟨.timeOut, ""⟩)] := by
  intro as
  have hrun : step.run {} as = some _ := rfl
  exact ⟨_, hrun, (answered_once hrun (List.mem_cons_self)).1,
    (answered_once hrun (List.mem_cons_of_mem _ List.mem_cons_self)).1, by decide⟩

end ZMQClient

end Dcfpe
