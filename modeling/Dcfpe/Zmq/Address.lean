import Dcfpe.Lib.Decimal
import Dcfpe.Service.Project
import Mathlib.Data.List.Nodup

/-!
# Addresses

`AddressHelper` makes the addresses that sockets are bound to: of an IP, which for the channels of a
process is one of its own, and of a port, for which there is a counter that goes round.
-/

set_option autoImplicit false

namespace Dcfpe

namespace AddressHelper

def kMinPort : Nat := 20000

def kMaxPort : Nat := 40000

/-- `GetNextAvailablePort`: the port, and `next_available_port_` after it. -/
def getNextAvailablePort (nextAvailablePort : Nat) : Nat × Nat :=
  (nextAvailablePort, if nextAvailablePort + 1 = kMaxPort then kMinPort else nextAvailablePort + 1)

/-- `%d`. -/
def decimal (n : Nat) : Bytes := Decimal.bytes (toString (n : Int)).toList

def dot : UInt8 := 46

def colon : UInt8 := 58

def formatAddress (ip : UInt32) (port : Nat) : Bytes :=
  decimal (ip >>> 24).toNat ++ dot :: (decimal ((ip >>> 16) &&& 255).toNat ++ dot ::
    (decimal ((ip >>> 8) &&& 255).toNat ++ dot ::
      (decimal (ip &&& 255).toNat ++ colon :: decimal port)))

def makeZMQTCPAddress (ip : UInt32) (port : Nat) : Bytes :=
  Decimal.bytes "tcp://".toList ++ formatAddress ip port

/-- `MAKE_IP`. -/
def makeIP (a b c d : UInt32) : UInt32 := (a <<< 24) ||| (b <<< 16) ||| (c <<< 8) ||| d

/-- `GetProcessIP`, by the id of the process. -/
def getProcessIP (processId : UInt32) : UInt32 := makeIP 127 233 0 0 ||| (processId % 65535 + 1)

def getCtrlIP (processId : UInt32) : UInt32 := makeIP 127 234 0 0 ||| (processId % 65535 + 1)

/-! ## No two addresses are the same -/

theorem decimal_inj {m n : Nat} (h : decimal m = decimal n) : m = n := by
  have hvalue := congrArg (fun s => Decimal.value (Decimal.chars s)) h
  simp only [decimal, Decimal.value_bytes_toString] at hvalue
  exact Int.ofNat_inj.1 hvalue

theorem decimal_digits {n : Nat} {b : UInt8} (hb : b ∈ decimal n) :
    b.toNat = 45 ∨ 48 ≤ b.toNat ∧ b.toNat ≤ 57 := Decimal.mem_bytes_toString hb

/-- What separates a number from what follows it. -/
def Separates (b : UInt8) : Prop := b = dot ∨ b = colon

theorem takeWhile_decimal {b : UInt8} (hb : Separates b) (n : Nat) (rest : Bytes) :
    (decimal n ++ b :: rest).takeWhile (· ≠ b) = decimal n := by
  have hne : ∀ c ∈ decimal n, decide (c ≠ b) = true := by
    intro c hc
    rw [decide_eq_true_eq]
    rintro rfl
    have hdigits := decimal_digits hc
    rcases hb with rfl | rfl <;> exact absurd hdigits (by decide)
  rw [List.takeWhile_append_of_pos hne, List.takeWhile_cons_of_neg (by simp), List.append_nil]

theorem split_decimal {b : UInt8} (hb : Separates b) {m n : Nat} {rest rest' : Bytes}
    (h : decimal m ++ b :: rest = decimal n ++ b :: rest') : m = n ∧ rest = rest' := by
  have htake := congrArg (List.takeWhile (· ≠ b)) h
  rw [takeWhile_decimal hb, takeWhile_decimal hb] at htake
  rw [htake] at h
  exact ⟨decimal_inj htake, (List.cons.inj (List.append_cancel_left h)).2⟩

theorem octets_inj {ip ip' : UInt32} (h₁ : (ip >>> 24).toNat = (ip' >>> 24).toNat)
    (h₂ : ((ip >>> 16) &&& 255).toNat = ((ip' >>> 16) &&& 255).toNat)
    (h₃ : ((ip >>> 8) &&& 255).toNat = ((ip' >>> 8) &&& 255).toNat)
    (h₄ : (ip &&& 255).toNat = (ip' &&& 255).toNat) : ip = ip' := by
  have hbyte : ∀ n : Nat, n &&& 255 = n % 256 := fun n => Nat.and_two_pow_sub_one_eq_mod n 8
  rw [← UInt32.toNat_inj]
  simp [Nat.shiftRight_eq_div_pow, hbyte] at h₁ h₂ h₃ h₄
  omega

/-- **An address tells its IP and its port.** -/
theorem makeZMQTCPAddress_inj {ip ip' : UInt32} {port port' : Nat}
    (h : makeZMQTCPAddress ip port = makeZMQTCPAddress ip' port') : ip = ip' ∧ port = port' := by
  rw [makeZMQTCPAddress, makeZMQTCPAddress, formatAddress, formatAddress] at h
  obtain ⟨h₁, h⟩ := split_decimal (.inl rfl) (List.append_cancel_left h)
  obtain ⟨h₂, h⟩ := split_decimal (.inl rfl) h
  obtain ⟨h₃, h⟩ := split_decimal (.inl rfl) h
  obtain ⟨h₄, h⟩ := split_decimal (.inr rfl) h
  exact ⟨octets_inj h₁ h₂ h₃ h₄, decimal_inj h⟩

theorem mem_makeZMQTCPAddress {ip : UInt32} {port : Nat} {b : UInt8}
    (hb : b ∈ makeZMQTCPAddress ip port) : 45 ≤ b.toNat ∧ b.toNat < 128 := by
  have hdecimal : ∀ {n : Nat}, b ∈ decimal n → 45 ≤ b.toNat ∧ b.toNat < 128 := fun h => by
    have hdigits := decimal_digits h
    omega
  simp only [makeZMQTCPAddress, formatAddress, List.mem_append, List.mem_cons] at hb
  rcases hb with h | h | rfl | h | rfl | h | rfl | h | rfl | h
  · have hscheme : ∀ c ∈ Decimal.bytes "tcp://".toList, 45 ≤ c.toNat ∧ c.toNat < 128 := by
      decide +kernel
    exact hscheme b h
  · exact hdecimal h
  · decide
  · exact hdecimal h
  · decide
  · exact hdecimal h
  · decide
  · exact hdecimal h
  · decide
  · exact hdecimal h

/-- The offset of a process is in the lower half of its IPs. -/
theorem ip_high (base processId : UInt32) :
    ((base ||| (processId % 65535 + 1)) >>> 16) = base >>> 16 := by
  have hoffset : (processId % 65535 + 1).toNat / 2 ^ 16 = 0 := by
    simp
    omega
  rw [← UInt32.toNat_inj]
  simp only [UInt32.toNat_shiftRight, UInt32.toNat_or]
  rw [show (16 : UInt32).toNat % 32 = 16 from rfl, Nat.shiftRight_or_distrib,
    Nat.shiftRight_eq_div_pow (processId % 65535 + 1).toNat, hoffset, Nat.or_zero]

theorem getProcessIP_ne_getCtrlIP (processId processId' : UInt32) :
    getProcessIP processId ≠ getCtrlIP processId' := by
  intro heq
  have hhigh := congrArg (· >>> (16 : UInt32)) heq
  simp only [getProcessIP, getCtrlIP, ip_high] at hhigh
  exact absurd hhigh (by decide)

/-! ## The ports -/

/-- The ports of `n` calls of `GetNextAvailablePort`. -/
def ports : Nat → Nat → List Nat
  | _, 0 => []
  | next, n + 1 => (getNextAvailablePort next).1 :: ports (getNextAvailablePort next).2 n

theorem getNextAvailablePort_range {next : Nat} (h : kMinPort ≤ next ∧ next < kMaxPort) :
    kMinPort ≤ (getNextAvailablePort next).2 ∧ (getNextAvailablePort next).2 < kMaxPort := by
  simp only [getNextAvailablePort, kMinPort, kMaxPort] at h ⊢
  by_cases hmax : next + 1 = 40000
  · simp [hmax]
  · simp only [hmax, if_false]
    omega

/-- The counter goes round. -/
theorem getElem?_ports {next : Nat} (h : kMinPort ≤ next ∧ next < kMaxPort) {n i : Nat}
    (hi : i < n) :
    (ports next n)[i]? = some (kMinPort + (next - kMinPort + i) % (kMaxPort - kMinPort)) := by
  induction n generalizing next i with
  | zero => exact absurd hi (Nat.not_lt_zero i)
  | succ n ih =>
    rcases i with _ | i
    · simp only [ports, getNextAvailablePort, kMinPort, kMaxPort, List.getElem?_cons_zero] at h ⊢
      rw [Option.some_inj]
      omega
    · have hrange := getNextAvailablePort_range h
      rw [ports, List.getElem?_cons_succ, ih hrange (by omega), Option.some_inj]
      simp only [getNextAvailablePort, kMinPort, kMaxPort] at h ⊢
      by_cases hmax : next + 1 = 40000
      · simp only [hmax, if_true]
        omega
      · simp only [hmax, if_false]
        omega

theorem length_ports (next n : Nat) : (ports next n).length = n := by
  induction n generalizing next with
  | zero => rfl
  | succ n ih => rw [ports, List.length_cons, ih]

/-- **Channel addresses are not reused soon.**  A process can make 20000 addresses in a row, of
whatever IPs, without making one a second time, and those of its channels and of its control sockets
are never the same. -/
theorem nodup_addresses {next : Nat} (h : kMinPort ≤ next ∧ next < kMaxPort) {ips : List UInt32}
    (hips : ips.length ≤ kMaxPort - kMinPort) :
    (List.zipWith makeZMQTCPAddress ips (ports next ips.length)).Nodup ∧
      ∀ processId processId' : UInt32, ∀ port port' : Nat,
        makeZMQTCPAddress (getProcessIP processId) port ≠
          makeZMQTCPAddress (getCtrlIP processId') port' := by
  refine ⟨?_, fun processId processId' port port' heq => ?_⟩
  · rw [List.nodup_iff_getElem?_ne_getElem?]
    intro i j hij hj heq
    rw [List.length_zipWith, length_ports, Nat.min_self] at hj
    have hi : i < ips.length := Nat.lt_trans hij hj
    rw [List.getElem?_zipWith, List.getElem?_zipWith, getElem?_ports h hi, getElem?_ports h hj,
      List.getElem?_eq_getElem hi, List.getElem?_eq_getElem hj] at heq
    have hport := (makeZMQTCPAddress_inj (Option.some_inj.1 heq)).2
    simp only [kMinPort, kMaxPort] at h hips hport
    omega
  · exact getProcessIP_ne_getCtrlIP processId processId' (makeZMQTCPAddress_inj heq).1

theorem nodup_addresses_three :
    (List.zipWith makeZMQTCPAddress [getProcessIP 7, getProcessIP 7, getCtrlIP 7]
      (ports 39999 3)).Nodup ∧
      ∀ processId processId' : UInt32, ∀ port port' : Nat,
        makeZMQTCPAddress (getProcessIP processId) port ≠
          makeZMQTCPAddress (getCtrlIP processId') port' :=
  nodup_addresses (by decide) (by decide)

end AddressHelper

end Dcfpe
