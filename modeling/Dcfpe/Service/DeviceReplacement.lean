import Dcfpe.Service.DeviceCreator
import Mathlib.Data.List.Nodup

/-!
# Asking for a device again

Two things keep a service from being asked again.  The creator's list still has a device that was
lost long ago (`asksDue_iff`), and `creating_` is still set for a request that was never sent
(`awaitsReply_iff`).
-/

set_option autoImplicit false

namespace Dcfpe

namespace DeviceFleet

/-! ## Lost devices -/

/-- The service is to be asked: no device of it is being created or still in the manager's list. -/
def Due (m : DeviceFleet) (c : RemoteDPEDeviceCreator) : Prop :=
  c.creating = false ∧ ∀ d ∈ c.deviceList, d ∉ m.deviceList

/-- A refresh asks each service that is due. -/
def AsksDue (m : DeviceFleet) : Event → Prop
  | .refresh outcome => ∃ new, (m.refreshDeviceState outcome).asked = m.asked ++ new ∧
      ∀ c ∈ m.dpeList, m.Due c → c.serverAddress ∈ new
  | _ => True

/-- When a refresh runs, no device has been lost yet. -/
def NoneLost (m : DeviceFleet) : Event → Prop
  | .refresh _ => ∀ d < m.created.length, d ∈ m.deviceList
  | _ => True

theorem asksDue_refresh_iff {m : DeviceFleet} (h : m.Inv) (outcome : String → CreateOutcome) :
    m.AsksDue (.refresh outcome) ↔ m.NoneLost (.refresh outcome) := by
  constructor
  · rintro ⟨new, hnew, hall⟩ d hd
    by_contra hlost
    -- the owner of the lost device is due, but its list is not empty
    obtain ⟨c, hc, hdev, hcreating⟩ := h.owner d hd
    have hdue : m.Due c := by
      refine ⟨hcreating, fun d' hd' => ?_⟩
      rw [hdev, List.mem_singleton] at hd'
      exact hd' ▸ hlost
    have hasked := hall c hc hdue
    rw [refreshDeviceState_eq] at hnew
    rw [← List.append_cancel_left hnew] at hasked
    obtain ⟨c', hc', haddress⟩ := List.mem_map.1 hasked
    obtain ⟨hc', hasks⟩ := List.mem_filter.1 hc'
    obtain rfl := List.inj_on_of_nodup_map h.address hc' hc haddress
    rw [(asks_iff.1 hasks).2] at hdev
    cases hdev
  · intro hnone
    refine ⟨_, by rw [refreshDeviceState_eq], fun c hc hdue =>
      List.mem_map_of_mem (List.mem_filter.2 ⟨hc, ?_⟩)⟩
    refine asks_iff.2 ⟨hdue.1, (h.single c hc).resolve_right ?_⟩
    rintro ⟨-, d, hd, hdev, -⟩
    exact hdue.2 d (by rw [hdev]; exact List.mem_singleton_self d) (hnone d hd)

/-- **When a lost device is replaced.**  Every refresh of a run asks all the services it should
exactly if none of them runs after the loss of a device: a service that has had a device is never
asked again. -/
theorem asksDue_iff (es : List Event) :
    step.Meets AsksDue {} es ↔ step.Meets NoneLost {} es := by
  refine Machine.meets_congr (P := Inv) (fun m e t h _ hstep => h.step hstep) ?_ inv_empty
  intro m e h
  cases e with
  | refresh outcome => exact asksDue_refresh_iff h outcome
  | addService => exact Iff.rfl
  | response => exact Iff.rfl
  | lose => exact Iff.rfl

/-- The response of a service that has made a device. -/
def createdReply : CreateDeviceReply where
  errorCode := 0
  getString := some fun key =>
    ([("type", "rsc"), ("src", "a"), ("dest", "b"), ("reply", "CreateDPEDeviceResponse"),
      ("error_code", "0"), ("receive_address", "r"), ("send_address", "s"),
      ("session", "1")] : List (String × String)).lookup key

/-- One service, whose device is lost. -/
def lostDevice : List Event :=
  [.addService false "a", .refresh fun _ => .sent, .response 0 createdReply true, .lose 0,
    .refresh fun _ => .sent]

theorem lost_device_not_replaced : ¬ step.Meets AsksDue {} lostDevice := by
  rintro ⟨-, h⟩
  replace h := (h _ rfl).2
  replace h := (h _ rfl).2
  replace h := (h _ rfl).2
  obtain ⟨new, hnew, hall⟩ := (h _ rfl).1
  have hnil : new = [] := List.append_cancel_left (hnew.symm.trans (List.append_nil _).symm)
  have hasked := hall
    { isLocal := false, serverAddress := "a", deviceList := [0] } (by decide) ⟨rfl, by decide⟩
  rw [hnil] at hasked
  cases hasked

/-! ## Failed sends -/

/-- A creator that is creating a device has a request pending. -/
def AwaitsReply (m : DeviceFleet) : Prop :=
  ∀ c ∈ m.dpeList, c.creating = true → 0 < c.pending

/-- Each request of a refresh that is written is sent. -/
def SendsRequests (m : DeviceFleet) : Event → Prop
  | .refresh outcome => ∀ c ∈ m.dpeList, asks c = true → outcome c.serverAddress ≠ .sendFails
  | _ => True

theorem awaitsReply_refresh_iff {m : DeviceFleet} (hinv : m.Inv) (h : m.AwaitsReply)
    (outcome : String → CreateOutcome) :
    (m.refreshDeviceState outcome).AwaitsReply ↔ m.SendsRequests (.refresh outcome) := by
  constructor
  · intro ht c hc hasks hfails
    rcases refreshed_cases outcome c with ⟨-, hno⟩ | ⟨-, heq⟩
    · cases hno.symm.trans hasks
    · obtain ⟨hle, hone⟩ := hinv.pending c hc
      have hzero : c.pending = 0 := by
        by_contra hne
        cases (asks_iff.1 hasks).1.symm.trans (hone (by omega))
      have hpending := ht _ (mem_refreshDeviceState.2 ⟨c, hc, heq⟩) (by simp [hfails])
      simp [hfails, hzero] at hpending
  · intro hsends c hc hcreating
    obtain ⟨c₀, hc₀, rfl⟩ := mem_refreshDeviceState.1 hc
    rcases refreshed_cases outcome c₀ with ⟨heq, -⟩ | ⟨hasks, heq⟩
    · rw [heq] at hcreating ⊢
      exact h c₀ hc₀ hcreating
    · have hne := hsends c₀ hc₀ hasks
      rw [heq] at hcreating ⊢
      cases ho : outcome c₀.serverAddress with
      | unwritten => simp [ho] at hcreating
      | sendFails => exact absurd ho hne
      | sent => simp

theorem awaitsReply_step_iff {m t : DeviceFleet} (hinv : m.Inv) (h : m.AwaitsReply) {e : Event}
    (hstep : step m e = some t) : t.AwaitsReply ↔ m.SendsRequests e := by
  cases e with
  | addService isLocal serverAddress =>
    obtain rfl := Option.some.inj hstep
    refine iff_of_true (fun c hc hcreating => ?_) trivial
    rw [addRemoteDPEService] at hc
    split at hc
    · exact h c hc hcreating
    · rcases List.mem_append.1 hc with hc | hc
      · exact h c hc hcreating
      · rw [List.mem_singleton.1 hc] at hcreating
        cases hcreating
  | refresh outcome =>
    obtain rfl := Option.some.inj hstep
    exact awaitsReply_refresh_iff hinv h outcome
  | response i rep starts =>
    simp only [step] at hstep
    split at hstep
    · next c hc =>
      split at hstep
      · cases hstep
      · obtain rfl := Option.some.inj hstep
        refine iff_of_true (fun c₁ hc₁ hcreating => ?_) trivial
        rcases handleResponse_cases i rep starts c m with heq | ⟨address, heq⟩
        all_goals
          rw [heq] at hc₁
          rcases List.mem_or_eq_of_mem_set hc₁ with hc₁ | rfl
          · exact h c₁ hc₁ hcreating
          · cases hcreating
    · cases hstep
  | lose k =>
    simp only [step] at hstep
    split at hstep
    · obtain ⟨l, -, rfl⟩ := Option.map_eq_some_iff.1 hstep
      exact iff_of_true h trivial
    · cases hstep

/-- **When `creating_` can be trusted.**  It is set only while a request is pending, in all states
of a run, exactly if no send of a request for a device fails. -/
theorem awaitsReply_iff (es : List Event) :
    (∀ pre t, pre <+: es → step.run {} pre = some t → t.AwaitsReply) ↔
      step.Meets SendsRequests {} es := by
  have hempty : AwaitsReply {} := by
    intro c hc
    cases hc
  refine Machine.always_iff (fun m e t h _ _ hstep => h.step hstep) ?_ inv_empty hempty
  intro m e h hm
  refine ⟨fun hawaits => ?_, fun hsends u hu => (awaitsReply_step_iff h hm hu).2 hsends⟩
  cases e with
  | refresh outcome => exact (awaitsReply_step_iff h hm rfl).1 (hawaits _ rfl)
  | addService => trivial
  | response => trivial
  | lose => trivial

end DeviceFleet

end Dcfpe
