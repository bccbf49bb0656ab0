import Dcfpe.Service.RemoteDevice

/-!
# Taking a lost device off the list

`RemoteDPEDeviceManager::OnDeviceLose` tells the scheduler, stops the device, and looks for it in
`device_list_` with a loop whose iterator is never incremented.  The loop tests the first place
again and again, so it ends only if the device is there.

Devices are pointers, a type with decidable equality, and the manager knows what they point to.
-/

set_option autoImplicit false

namespace Dcfpe

universe u v

/-- The loop of `OnDeviceLose` with its iterator at place `iter`; `none` when `fuel` tests are not
enough for it to end. -/
def loseLoop {δ : Type u} [DecidableEq δ] (device : δ) (deviceList : List δ) :
    Nat → Nat → Option (List δ)
  | 0, _ => none
  | fuel + 1, iter =>
    match deviceList[iter]? with
    | none => some deviceList
    | some d =>
      if d = device then some (deviceList.eraseIdx iter)
      -- the place of the iterator is the same in the next round
      else loseLoop device deviceList fuel iter

/-- `host_`, `device_list_` and the devices themselves. -/
structure RemoteDPEDeviceManager (δ : Type u) (η : Type v) where
  host : η
  deviceList : List δ
  device : δ → RemoteDPEDevice

section

variable {δ : Type u} {η : Type v} [DecidableEq δ]

theorem loseLoop_found {device : δ} {deviceList : List δ} {iter : Nat}
    (h : deviceList[iter]? = some device) (fuel : Nat) :
    loseLoop device deviceList (fuel + 1) iter = some (deviceList.eraseIdx iter) := by
  simp [loseLoop, h]

/-- The loop stands still before a device that is not the one it looks for. -/
theorem loseLoop_stuck {device d : δ} {deviceList : List δ} {iter : Nat}
    (h : deviceList[iter]? = some d) (hne : d ≠ device) (fuel : Nat) :
    loseLoop device deviceList fuel iter = none := by
  induction fuel with
  | zero => rfl
  | succ fuel ih => simp [loseLoop, h, hne, ih]

namespace RemoteDPEDeviceManager

variable (tell : RemoteDPEDevice → RemoteDeviceState → η → η)

/-- `OnDeviceLose`; `tell` is that of the scheduler. -/
def onDeviceLose (fuel : Nat) (device : δ) (state : RemoteDeviceState)
    (m : RemoteDPEDeviceManager δ η) : Option (RemoteDPEDeviceManager δ η) :=
  let m := { m with host := tell (m.device device) state m.host }
  let m := { m with device := Function.update m.device device (m.device device).stop.1 }
  (loseLoop device m.deviceList fuel 0).map fun deviceList => { m with deviceList := deviceList }

/-- `device` is gone from the list, the others are as they were, and it is stopped. -/
structure Removed (device : δ) (m m' : RemoteDPEDeviceManager δ η) : Prop where
  deviceList : m'.deviceList = m.deviceList.filter (· ≠ device)
  state : (m'.device device).deviceState = .idle
  registered : (m'.device device).registered = false

/-- **A lost device is taken off the list exactly if it is the first one.**  Behind another device
it makes the loop run for ever. -/
theorem onDeviceLose_iff (m : RemoteDPEDeviceManager δ η) (device : δ) (state : RemoteDeviceState)
    (hnd : m.deviceList.Nodup) (hmem : device ∈ m.deviceList) :
    (∃ fuel m', m.onDeviceLose tell fuel device state = some m' ∧ Removed device m m') ↔
      m.deviceList.head? = some device := by
  obtain ⟨d, rest, hlist⟩ := List.exists_cons_of_ne_nil (List.ne_nil_of_mem hmem)
  have hfirst : m.deviceList[0]? = some d := by rw [hlist]; rfl
  rw [hlist, List.head?_cons, Option.some_inj]
  constructor
  · rintro ⟨fuel, m', hm', -⟩
    by_contra hne
    simp [onDeviceLose, loseLoop_stuck hfirst hne fuel] at hm'
  · rintro rfl
    refine ⟨1, _, by rw [onDeviceLose, loseLoop_found hfirst]; rfl, ?_, ?_, ?_⟩
    · rw [hlist, List.nodup_cons] at hnd
      have hrest : rest.filter (· ≠ d) = rest :=
        List.filter_eq_self.2 fun x hx => by simpa using ne_of_mem_of_not_mem hx hnd.1
      show m.deviceList.eraseIdx 0 = m.deviceList.filter (· ≠ d)
      rw [hlist, List.filter_cons_of_neg (by simp), hrest]
      rfl
    · simp [RemoteDPEDevice.stop]
    · simp [RemoteDPEDevice.stop]

end RemoteDPEDeviceManager

end

/-- Two devices of one controller; the second is lost while it runs a task. -/
def twoDevices : RemoteDPEDeviceManager Nat Unit where
  host := ()
  deviceList := [0, 1]
  device _ := { deviceState := .running, pa := "pa", session := "1" }

theorem second_device_never_removed :
    twoDevices.deviceList.Nodup ∧ 1 ∈ twoDevices.deviceList ∧
      ∀ fuel, twoDevices.onDeviceLose (fun _ _ _ => ()) fuel 1 .running = none := by
  refine ⟨by decide, by decide, fun fuel => ?_⟩
  have hfirst : twoDevices.deviceList[0]? = some 0 := rfl
  rw [RemoteDPEDeviceManager.onDeviceLose, loseLoop_stuck hfirst (by decide)]
  rfl

theorem first_device_removed :
    ∃ fuel m', twoDevices.onDeviceLose (fun _ _ _ => ()) fuel 0 .running = some m' ∧
      RemoteDPEDeviceManager.Removed 0 twoDevices m' :=
  (RemoteDPEDeviceManager.onDeviceLose_iff _ twoDevices 0 .running (by decide) (by decide)).2 rfl

end Dcfpe
