import ScalableServer.Foundations.Strtol

/-! `parse_port`, of which the client and the controller have one text, with radix 10 in every call.
-/

namespace ScalableServer

open ScalableServer.Foundations

namespace Core

def UINT16_MAX : ℤ := 65535

/-- The value of `msg`, where `end` points to `r.rest` and `errno` is `ERANGE` as `r` says. -/
def portMsg (buff : CString) (r : Strtol) : Option String :=
  if r.rest = buff.bytes then some "not a decimal number"
  else if r.rest.headD 0 ≠ 0 then some "extra characters at end of input"
  else if (LONG_MIN = r.value ∨ LONG_MAX = r.value) ∧ r.erange = true then
    some "out of range of type long"
  else if r.value > UINT16_MAX then some "greater than UINT16_MAX"
  else if r.value < 0 then some "less than 0"
  else none

def parsePort (dst : ℕ) (buff : CString) : ℤ × ℕ :=
  let r := strtol buff.bytes
  match portMsg buff r with
  | some _ => (-1, dst)
  | none => (0, (r.value % 2 ^ 16).toNat)

end Core

open ScalableServer.Core

def Client.parsePort : ℕ → CString → ℤ × ℕ := Core.parsePort

def ClientController.parsePort : ℕ → CString → ℤ × ℕ := Core.parsePort

def PortText (s : List UInt8) (port : ℕ) : Prop :=
  ∃ m : Numeral, s = m.text ∧ m.value = port ∧ port ≤ 65535

lemma clamp_of_port {port : ℕ} (h : port ≤ 65535) : clamp port = port := by
  rw [clamp, LONG_MIN, LONG_MAX]
  omega

lemma parsePort_of_portText {dst port : ℕ} {s : CString} (h : PortText s.bytes port) :
    Core.parsePort dst s = (0, port) := by
  obtain ⟨m, hs, hvalue, hport⟩ := h
  have hmsg : portMsg s (strtol s.bytes) = none := by
    have hlarge : ¬ (port : ℤ) > UINT16_MAX := by
      rw [UINT16_MAX]
      omega
    have hneg : ¬ (port : ℤ) < 0 := by omega
    rw [hs, m.strtol_text, hvalue, clamp_of_port hport, portMsg, hs, if_neg m.text_ne_nil.symm,
      if_neg (by simp), if_neg (by simp), if_neg hlarge, if_neg hneg]
  simp only [Core.parsePort, hmsg]
  rw [hs, m.strtol_text, hvalue, clamp_of_port hport]
  simp only [Prod.mk.injEq, true_and]
  omega

lemma portText_of_portMsg {s : CString} (h : portMsg s (strtol s.bytes) = none) :
    ∃ port, PortText s.bytes port := by
  rw [portMsg] at h
  split_ifs at h with hmoved hend hrange hlarge hneg
  obtain hnone | ⟨m, hs, -⟩ := strtol_splits s.bytes
  · exact (hmoved hnone).elim
  -- what stands behind the number is empty, as no byte of the string is the NUL
  have hrest : (strtol s.bytes).rest = [] := by
    cases he : (strtol s.bytes).rest with
    | nil => rfl
    | cons b rest =>
      rw [he] at hend hs
      obtain rfl : b = 0 := not_not.mp hend
      exact (s.noNul (by rw [hs]; simp)).elim
  rw [hrest, List.append_nil] at hs
  rw [hs, m.strtol_text] at hrange hlarge hneg
  simp only [clamp, LONG_MIN, LONG_MAX, UINT16_MAX] at hrange hlarge hneg
  exact ⟨m.value.toNat, m, hs, by omega, by omega⟩

theorem parsePort_accepts (dst : ℕ) (s : CString) :
    (∀ port, PortText s.bytes port → Client.parsePort dst s = (0, port)) ∧
      ((∀ port, ¬ PortText s.bytes port) → Client.parsePort dst s = (-1, dst)) ∧
      ClientController.parsePort dst s = Client.parsePort dst s := by
  refine ⟨fun port => parsePort_of_portText, fun hnone => ?_, rfl⟩
  rw [Client.parsePort, Core.parsePort]
  cases hmsg : portMsg s (strtol s.bytes) with
  | some msg => rfl
  | none =>
    obtain ⟨port, hport⟩ := portText_of_portMsg hmsg
    exact (hnone port hport).elim

example : (Core.parsePort 7 ⟨[32, 45, 48, 48], by decide⟩,
    Core.parsePort 7 ⟨List.replicate 30 57, by decide⟩) = ((0, 0), (-1, 7)) := by decide

end ScalableServer
