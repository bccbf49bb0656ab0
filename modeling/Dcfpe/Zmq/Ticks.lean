import Dcfpe.Lib.Checked
import Dcfpe.Zmq.AnswerOnce
import Mathlib.Data.List.Induction

/-!
# Ticks that wrap

`GetTickCount` counts milliseconds modulo 2^32, and the client keeps the count in `int32_t`.  `Run`
subtracts the current tick from the deadline, which is the time that is left whenever that fits;
`ProcessEvent` compares the two, and the order of two ticks is that of the times they stand for only
when none or both of them have passed 2^31.  `punctual_iff` says for which requests this makes a
difference.
-/

set_option autoImplicit false

namespace Dcfpe

namespace ZMQClient

/-! ## The difference and the order of ticks -/

section Ticks

variable (sent : UInt32) {timeout : Int32} {e : Nat}

/-- What `GetTickCount` gives `e` milliseconds after the tick `sent`, stored in an `int32_t`. -/
def tickAfter (e : Nat) : Int32 := (sent + UInt32.ofNat e).toInt32

theorem toInt_toInt32 : sent.toInt32.toInt = (sent.toNat : Int).bmod 4294967296 := by
  show sent.toBitVec.toInt = _
  rw [BitVec.toInt_eq_toNat_bmod]
  rfl

theorem toInt_tickAfter (e : Nat) :
    (tickAfter sent e).toInt = (sent.toInt32.toInt + e).bmod 4294967296 := by
  rw [tickAfter, toInt_toInt32, toInt_toInt32, Int.bmod_add_bmod, UInt32.toNat_add,
    UInt32.toNat_ofNat', Int.bmod_def, Int.bmod_def]
  omega

/-- The time that is left does not depend on where the count stands. -/
theorem toInt_deadline_sub (ht : 0 < timeout) (he : e < 2147483648) :
    (sent.toInt32 + timeout - tickAfter sent e).toInt = timeout.toInt - e := by
  have hpos : 0 < timeout.toInt := Int32.lt_iff_toInt_lt.1 ht
  have hlt := timeout.toInt_lt
  rw [Int32.toInt_sub, Int32.toInt_add, toInt_tickAfter, Int.bmod_sub_bmod, Int.sub_bmod_bmod,
    Int.add_sub_add_left, Checked.bmod_eq (by omega) (by omega), if_pos (by omega)]

/-- The order of the ticks is that of the times when both wrap or neither does. -/
theorem deadline_lt_iff (ht : 0 < timeout) (he : e < 2147483648) :
    (sent.toInt32 + timeout < tickAfter sent e ↔ timeout.toInt < e) ↔
      (sent.toInt32.toInt + timeout.toInt < 2147483648 ↔ sent.toInt32.toInt + e < 2147483648) := by
  have hpos : 0 < timeout.toInt := Int32.lt_iff_toInt_lt.1 ht
  have hlt := timeout.toInt_lt
  have hsent := sent.toInt32.toInt_lt
  have hsent' := sent.toInt32.le_toInt
  rw [Int32.lt_iff_toInt_lt, Int32.toInt_add, toInt_tickAfter,
    Checked.bmod_eq (by omega) (by omega), Checked.bmod_eq (by omega) (by omega)]
  split <;> split <;> omega

end Ticks

/-! ## Run -/

/-- How long `zmq_poll` may wait for a request. -/
def RequestContext.left (now : Int32) (it : RequestContext) : Int32 :=
  if it.requestTime + it.timeOut - now < 0 then 0 else it.requestTime + it.timeOut - now

theorem RequestContext.left_nonneg (now : Int32) (it : RequestContext) : 0 ≤ it.left now := by
  rw [RequestContext.left]
  split
  · exact Int32.le_refl 0
  · exact Int32.not_lt.1 ‹_›

theorem pollTimeout_concat (now : Int32) (context : List RequestContext) (it : RequestContext) :
    pollTimeout now (context ++ [it]) =
      if it.timeOut > 0 then
        if pollTimeout now context = -1 ∨ it.left now < pollTimeout now context then it.left now
        else pollTimeout now context
      else pollTimeout now context := by
  rw [pollTimeout, List.foldl_append]
  rfl

/-- `zmq_poll` waits as long as the first request to become too old lets it. -/
theorem pollTimeout_spec (now : Int32) (context : List RequestContext) :
    ((∀ it ∈ context, ¬ it.timeOut > 0) ∧ pollTimeout now context = -1) ∨
    ((∃ it ∈ context, it.timeOut > 0 ∧ pollTimeout now context = it.left now) ∧
      ∀ it ∈ context, it.timeOut > 0 → pollTimeout now context ≤ it.left now) := by
  induction context using List.reverseRecOn with
  | nil => exact .inl ⟨by simp, rfl⟩
  | append_singleton context new ih =>
    rw [pollTimeout_concat]
    by_cases hnew : new.timeOut > 0
    · rw [if_pos hnew]
      right
      rcases ih with ⟨hnone, hend⟩ | ⟨⟨it, hit, hpos, hend⟩, hle⟩
      · rw [if_pos (.inl hend)]
        refine ⟨⟨new, by simp, hnew, rfl⟩, fun it hit ht => ?_⟩
        rcases List.mem_append.1 hit with hit | hit
        · exact absurd ht (hnone it hit)
        · rw [List.mem_singleton.1 hit]
          exact Int32.le_refl _
      · -- what has been found is the wait of a request, which is no -1
        have hne : pollTimeout now context ≠ -1 := by
          intro h
          have := RequestContext.left_nonneg now it
          rw [← hend, h] at this
          exact absurd this (by decide)
        by_cases hlt : new.left now < pollTimeout now context
        · rw [if_pos (.inr hlt)]
          refine ⟨⟨new, by simp, hnew, rfl⟩, fun it hit ht => ?_⟩
          rcases List.mem_append.1 hit with hit | hit
          · exact Int32.le_trans (Int32.le_of_lt hlt) (hle it hit ht)
          · rw [List.mem_singleton.1 hit]
            exact Int32.le_refl _
        · rw [if_neg (not_or_intro hne hlt)]
          refine ⟨⟨it, by simp [hit], hpos, hend⟩, fun it hit ht => ?_⟩
          rcases List.mem_append.1 hit with hit | hit
          · exact hle it hit ht
          · rw [List.mem_singleton.1 hit]
            exact Int32.not_lt.1 hlt
    · rw [if_neg hnew]
      rcases ih with ⟨hnone, hend⟩ | ⟨⟨it, hit, h⟩, hle⟩
      · refine .inl ⟨fun it hit => ?_, hend⟩
        rcases List.mem_append.1 hit with hit | hit
        · exact hnone it hit
        · exact List.mem_singleton.1 hit ▸ hnew
      · refine .inr ⟨⟨it, by simp [hit], h⟩, ?_⟩
        intro it hit ht
        rcases List.mem_append.1 hit with hit | hit
        · exact hle it hit ht
        · exact absurd (List.mem_singleton.1 hit ▸ ht) hnew

/-- The time that is left, none when there is none. -/
theorem toInt_left {sent : UInt32} {timeout : Int32} {e : Nat} {it : RequestContext}
    (hsent : it.requestTime = sent.toInt32) (htimeout : it.timeOut = timeout) (ht : 0 < timeout)
    (he : e < 2147483648) :
    (it.left (tickAfter sent e)).toInt = max 0 (timeout.toInt - e) := by
  have hdiff := toInt_deadline_sub sent ht he
  rw [RequestContext.left, hsent, htimeout]
  split <;> rename_i h
  · rw [Int32.lt_iff_toInt_lt, hdiff] at h
    simp only [Int32.toInt_zero] at h
    rw [Int32.toInt_zero]
    omega
  · rw [Int32.lt_iff_toInt_lt, hdiff] at h
    simp only [Int32.toInt_zero] at h
    rw [hdiff]
    omega

/-! ## ProcessEvent -/

/-- `ProcessEvent` takes a request for too old. -/
def RequestContext.Late (now : Int32) (it : RequestContext) : Prop :=
  it.timeOut > 0 ∧ now > it.requestTime + it.timeOut

section Answer

variable {now : Int32} {it : RequestContext} {context : List RequestContext}

/-- Of the requests whose sockets are not signalled, those that are not too old stay. -/
theorem mem_answer {sockets : AList fun _ : Nat => String}
    (hnone : sockets.lookup it.zmqSocket = none) :
    it ∈ (answer now context sockets).1 ↔ it ∈ context ∧ ¬ it.Late now := by
  induction context generalizing sockets with
  | nil => simp [answer]
  | cons head context ih =>
    cases hl : sockets.lookup head.zmqSocket with
    | some data =>
      have hne : it.zmqSocket ≠ head.zmqSocket := by
        intro h
        rw [h, hl] at hnone
        cases hnone
      have hhead : it ≠ head := fun h => hne (h ▸ rfl)
      have hlookup : (sockets.insert head.zmqSocket "").lookup it.zmqSocket = none := by
        rw [AList.lookup_insert_ne hne, hnone]
      simp only [answer, hl]
      rw [ih hlookup, List.mem_cons, or_iff_right hhead]
    | none =>
      simp only [answer, hl]
      split
      · next hlate =>
        rw [ih hnone, List.mem_cons]
        refine ⟨fun h => ⟨.inr h.1, h.2⟩, fun h => ⟨h.1.resolve_left ?_, h.2⟩⟩
        rintro rfl
        exact h.2 hlate
      · next hlate =>
        rw [List.mem_cons, ih hnone, List.mem_cons]
        refine ⟨?_, fun h => h.1.imp_right fun hmem => ⟨hmem, h.2⟩⟩
        rintro (rfl | h)
        · exact ⟨.inl rfl, hlate⟩
        · exact ⟨.inr h.1, h.2⟩

/-- Those that are too old are answered so. -/
theorem timeOut_mem_answer {sockets : AList fun _ : Nat => String}
    (hnone : sockets.lookup it.zmqSocket = none) (hit : it ∈ context) (hlate : it.Late now) :
    (it.callback, { errorCode := .timeOut, data := "" }) ∈ (answer now context sockets).2 := by
  induction context generalizing sockets with
  | nil => exact absurd hit List.not_mem_nil
  | cons head context ih =>
    rw [List.mem_cons] at hit
    cases hl : sockets.lookup head.zmqSocket with
    | some data =>
      have hne : it.zmqSocket ≠ head.zmqSocket := by
        intro h
        rw [h, hl] at hnone
        exact nomatch hnone
      have hlookup : (sockets.insert head.zmqSocket "").lookup it.zmqSocket = none := by
        rw [AList.lookup_insert_ne hne, hnone]
      simp only [answer, hl]
      exact List.mem_cons_of_mem _ (ih hlookup (hit.resolve_left fun h => hne (h ▸ rfl)))
    | none =>
      simp only [answer, hl]
      rcases hit with rfl | hit
      · rw [if_pos (show it.timeOut > 0 ∧ now > it.requestTime + it.timeOut from hlate)]
        exact List.mem_cons_self
      · split
        · exact List.mem_cons_of_mem _ (ih hnone hit)
        · exact ih hnone hit

/-- No other is. -/
theorem late_of_timeOut_mem {n : Nat} {rep : ZMQResponse} (hrep : rep.errorCode = .timeOut)
    {sockets : AList fun _ : Nat => String} (h : (n, rep) ∈ (answer now context sockets).2) :
    ∃ it ∈ context, it.callback = n ∧ it.Late now := by
  induction context generalizing sockets with
  | nil => exact absurd h List.not_mem_nil
  | cons head context ih =>
    have hrest : ∀ sockets, (n, rep) ∈ (answer now context sockets).2 →
        ∃ it ∈ head :: context, it.callback = n ∧ it.Late now := fun sockets h => by
      obtain ⟨it, hit, hlate⟩ := ih h
      exact ⟨it, List.mem_cons_of_mem _ hit, hlate⟩
    simp only [answer] at h
    split at h
    · rcases List.mem_cons.1 h with h | h
      · rw [Prod.mk.injEq] at h
        rw [h.2] at hrep
        cases hrep
      · exact hrest _ h
    · split at h
      · next hlate =>
        rcases List.mem_cons.1 h with h | h
        · rw [Prod.mk.injEq] at h
          exact ⟨head, List.mem_cons_self, h.1.symm, hlate⟩
        · exact hrest _ h
      · exact hrest _ h

end Answer

/-! ## Timeouts -/

/-- A request with this timeout, sent at this tick, gets what is asked for `e` milliseconds later:
in whatever run it is sent, if its socket is not signalled, and when `Run` polls. -/
structure Punctual (sent : UInt32) (timeout : Int32) (e : Nat) : Prop where
  timedOut : ∀ {as : List Action} {s : ZMQClient}, step.run {} as = some s →
    ∀ {id : Int32} {sockets : AList fun _ : Nat => String}, s.net = .processing id sockets →
    ∀ {it : RequestContext}, it ∈ s.context → it.requestTime = sent.toInt32 →
    it.timeOut = timeout → sockets.lookup it.zmqSocket = none →
    ∃ t responses, step s (.processEvent (tickAfter sent e)) = some t ∧
      t.posted = s.posted ++ responses ∧
      ((it.callback, { errorCode := .timeOut, data := "" }) ∈ responses ↔ timeout.toInt < e) ∧
      (it ∈ t.context ↔ ¬ timeout.toInt < e)
  /-- No other request asks for a shorter wait. -/
  poll : ∀ {context : List RequestContext} {it : RequestContext}, it ∈ context →
    it.requestTime = sent.toInt32 → it.timeOut = timeout →
    (∀ other ∈ context, other.timeOut > 0 →
      it.left (tickAfter sent e) ≤ other.left (tickAfter sent e)) →
    (pollTimeout (tickAfter sent e) context).toInt = max 0 (timeout.toInt - e)

/-- In a run, a request is late when the ticks say so. -/
theorem processEvent_late_iff {s : ZMQClient} (hinv : s.Inv) {id : Int32}
    {sockets : AList fun _ : Nat => String} (hnet : s.net = .processing id sockets)
    {it : RequestContext} (hit : it ∈ s.context) (hnone : sockets.lookup it.zmqSocket = none)
    (now : Int32) :
    ∃ t responses, step s (.processEvent now) = some t ∧ t.posted = s.posted ++ responses ∧
      ((it.callback, { errorCode := .timeOut, data := "" }) ∈ responses ↔ it.Late now) ∧
      (it ∈ t.context ↔ ¬ it.Late now) := by
  refine ⟨s.processEvent id sockets now, (answer now s.context sockets).2, ?_, rfl, ?_, ?_⟩
  · rw [step, hnet]
  · refine ⟨fun h => ?_, timeOut_mem_answer hnone hit⟩
    obtain ⟨other, hother, hcallback, hlate⟩ := late_of_timeOut_mem rfl h
    have heq : other = it :=
      List.inj_on_of_nodup_map hinv.callbackNodup hother hit hcallback
    exact heq ▸ hlate
  · exact (mem_answer hnone).trans (and_iff_right hit)

/-- A request that is sent and finds nothing on its socket. -/
def silentRequest (sent now : Int32) (timeout : Int32) : List Action :=
  [.start, .startEnd .hello, .zmqSocket 0 "" timeout, .push sent, .snapshot now,
    .poll (.ready none [none])]

theorem run_silentRequest (sent now : Int32) {timeout : Int32} (ht : 0 < timeout) :
    ∃ s it, step.run {} (silentRequest sent now timeout) = some s ∧
      s.net = .processing 0 (receive []) ∧ it ∈ s.context ∧ it.requestTime = sent ∧
      it.timeOut = timeout := by
  refine ⟨_, _, rfl, rfl, List.mem_singleton_self _, rfl, ?_⟩
  exact if_pos ht

/-- There is such a request for every tick and every timeout, so the ticks have to be in order. -/
theorem Punctual.late_iff {sent : UInt32} {timeout : Int32} {e : Nat}
    (h : Punctual sent timeout e) (ht : 0 < timeout) :
    sent.toInt32 + timeout < tickAfter sent e ↔ timeout.toInt < e := by
  obtain ⟨s, it, hrun, hnet, hit, hsent, htimeout⟩ :=
    run_silentRequest sent.toInt32 (tickAfter sent e) ht
  have hnone : (receive []).lookup it.zmqSocket = none := lookup_receive_of_not_mem (by simp)
  obtain ⟨t, responses, hstep, hposted, hanswer, -⟩ := h.timedOut hrun hnet hit hsent htimeout
    hnone
  obtain ⟨t', responses', hstep', hposted', hanswer', -⟩ :=
    processEvent_late_iff (inv_run hrun) hnet hit hnone (tickAfter sent e)
  rw [hstep, Option.some_inj] at hstep'
  rw [← hstep', hposted, List.append_cancel_left_eq] at hposted'
  rw [← hposted', hanswer, RequestContext.Late, hsent, htimeout] at hanswer'
  exact (hanswer'.trans (and_iff_right ht)).symm

/-- **Which requests are timed out when they should.**  The sum of the tick and the timeout, and
that of the tick and the time that has passed, leave `int32_t` together or not at all. -/
theorem punctual_iff {timeout : Int32} (ht : 0 < timeout) {e : Nat} (he : e < 2147483648)
    (sent : UInt32) :
    Punctual sent timeout e ↔
      (sent.toInt32.toInt + timeout.toInt < 2147483648 ↔ sent.toInt32.toInt + e < 2147483648) := by
  rw [← deadline_lt_iff sent ht he]
  constructor
  · exact fun h => h.late_iff ht
  · intro h
    refine ⟨?_, ?_⟩
    · intro as s hrun id sockets hnet it hit hsent htimeout hnone
      have hlate : it.Late (tickAfter sent e) ↔ timeout.toInt < e := by
        rw [RequestContext.Late, hsent, htimeout, and_iff_right ht]
        exact h
      rw [← hlate]
      exact processEvent_late_iff (inv_run hrun) hnet hit hnone _
    · intro context it hit hsent htimeout hshortest
      have hpos : it.timeOut > 0 := htimeout ▸ ht
      rw [← toInt_left hsent htimeout ht he]
      congr 1
      rcases pollTimeout_spec (tickAfter sent e) context with
        ⟨hnone, -⟩ | ⟨⟨other, hother, hpos', heq⟩, hle⟩
      · exact absurd hpos (hnone it hit)
      · exact Int32.le_antisymm (hle it hit hpos) (heq ▸ hshortest other hother hpos')

/-- A request with a timeout of ten seconds, sent 8 seconds before the counter gets to 2^31, is safe
once those are over. -/
theorem punctual_sample :
    Punctual 2147475648 10000 9000 ∧ ¬ Punctual 2147475648 10000 6000 :=
  ⟨(punctual_iff (by decide) (by decide) 2147475648).2 (by decide),
    fun h => absurd ((punctual_iff (by decide) (by decide) 2147475648).1 h) (by decide)⟩

/-- Before, it is timed out at once. -/
theorem not_punctual : ¬ ∀ (sent : UInt32) (timeout : Int32) (e : Nat), 0 < timeout →
    e < 2147483648 → Punctual sent timeout e := by
  intro h
  have hlate := (h 2147475648 10000 0 (by decide) (by decide)).late_iff (by decide)
  exact absurd (hlate.1 (by decide)) (by decide)

end ZMQClient

end Dcfpe
