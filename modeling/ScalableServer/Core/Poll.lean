import Mathlib.Data.Fintype.Card
import Mathlib.Tactic

/-! `POLLIN` is the only event that the servers request. -/

namespace ScalableServer.Core

structure Events where
  pollin : Bool := false
  pollerr : Bool := false
  pollhup : Bool := false
  pollnval : Bool := false
  deriving DecidableEq, Repr

def Events.zero : Events := {}

def POLLIN : Events := { pollin := true }

/-- `(revents & POLLHUP) || (revents & POLLERR)` -/
def Events.hangup (e : Events) : Bool := e.pollhup || e.pollerr

structure PollFd where
  fd : ℤ := 0
  events : Events := .zero
  revents : Events := .zero
  deriving DecidableEq, Repr

/-- What POSIX lets `poll` report for an entry: nothing for a negative descriptor, and of the events
only those requested; a hang-up, an error or an invalid descriptor may always be reported. -/
def PollFd.MayReport (p : PollFd) (e : Events) : Prop :=
  (p.fd < 0 → e = .zero) ∧ (e.pollin = true → p.events.pollin = true)

instance (p : PollFd) (e : Events) : Decidable (p.MayReport e) :=
  inferInstanceAs (Decidable ((_ → _) ∧ (_ → _)))

lemma PollFd.MayReport.requested {p : PollFd} (h : p.MayReport POLLIN) : p.events ≠ .zero := by
  intro he
  have hp := h.2 rfl
  rw [he] at hp
  cases hp

end ScalableServer.Core
