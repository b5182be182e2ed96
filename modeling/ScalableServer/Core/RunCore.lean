import ScalableServer.Foundations.Iteration
import ScalableServer.Foundations.Transitions

/-! `run_core`: the loop over the states that the functions of a library return. A function that
does not return is `none`; an `api` that could not be loaded is too. -/

namespace ScalableServer.Core

open ScalableServer.Foundations

inductive ServerStates
  | initializeServer
  | runServer
  | closeServer
  | error
  | exit
  deriving DecidableEq, Repr

def exitSuccess : ℤ := 0

def exitFailure : ℤ := 1

variable {σ : Type*}

structure Api (σ : Type*) where
  initializeServer : σ → Option (ServerStates × σ)
  runServer : σ → Option (ServerStates × σ)
  closeServer : σ → Option (ServerStates × σ)

structure CoreRun (σ : Type*) where
  nextState : ServerStates := .initializeServer
  exitStatus : ℤ := exitSuccess
  co : σ

def callApi (f : σ → Option (ServerStates × σ)) (exitStatus : ℤ) (co : σ) :
    Iter (CoreRun σ) (ℤ × σ) :=
  match f co with
  | none => .blocked
  | some (nextState, co) => .again ⟨nextState, exitStatus, co⟩

def runCoreBody (api : Api σ) (s : CoreRun σ) : Iter (CoreRun σ) (ℤ × σ) :=
  match s.nextState with
  | .initializeServer => callApi api.initializeServer s.exitStatus s.co
  | .runServer => callApi api.runServer s.exitStatus s.co
  | .closeServer => callApi api.closeServer s.exitStatus s.co
  | .error => callApi api.closeServer exitFailure s.co
  | .exit => .done (if s.exitStatus = 0 then exitSuccess else s.exitStatus, s.co)

def runCore (api : Option (Api σ)) (co : σ) : Option (ℤ × σ) :=
  match api with
  | none => some (exitFailure, co)
  | some api => iterate (runCoreBody api) 4 { co := co }

variable {api : Api σ} {co co₁ co₂ co₃ : σ}

lemma runCoreBody_again {s : CoreRun σ} {f : σ → Option (ServerStates × σ)} {status : ℤ}
    {next : ServerStates} (hbody : runCoreBody api s = callApi f status s.co)
    (hf : f s.co = some (next, co)) : runCoreBody api s = .again ⟨next, status, co⟩ := by
  rw [hbody, callApi, hf]

lemma runCore_returns {next : ServerStates} {status : ℤ}
    (hinit : api.initializeServer co = some (.runServer, co₁))
    (hrun : api.runServer co₁ = some (next, co₂))
    (hnext : next = .closeServer ∧ status = exitSuccess ∨ next = .error ∧ status = exitFailure)
    (hclose : api.closeServer co₂ = some (.exit, co₃)) :
    runCore (some api) co = some (status, co₃) := by
  have h₁ : runCoreBody api { co := co } = .again ⟨.runServer, exitSuccess, co₁⟩ :=
    runCoreBody_again rfl hinit
  have h₂ : runCoreBody api ⟨.runServer, exitSuccess, co₁⟩ = .again ⟨next, exitSuccess, co₂⟩ :=
    runCoreBody_again rfl hrun
  have h₃ : runCoreBody api ⟨next, exitSuccess, co₂⟩ = .again ⟨.exit, status, co₃⟩ := by
    rcases hnext with ⟨rfl, rfl⟩ | ⟨rfl, rfl⟩
    · exact runCoreBody_again rfl hclose
    · exact runCoreBody_again rfl hclose
  have h₄ : runCoreBody api ⟨.exit, status, co₃⟩ = .done (status, co₃) := by
    rcases hnext with ⟨-, rfl⟩ | ⟨-, rfl⟩ <;> rfl
  rw [runCore, iterate_again h₁, iterate_again h₂, iterate_again h₃]
  exact iterate_done h₄

lemma runCore_failed {closed : Option σ} (hinit : api.initializeServer co = some (.error, co₁))
    (hclose : api.closeServer co₁ = closed.map fun co => (.exit, co)) :
    runCore (some api) co = closed.map fun co => (exitFailure, co) := by
  have h₁ : runCoreBody api { co := co } = .again ⟨.error, exitSuccess, co₁⟩ :=
    runCoreBody_again rfl hinit
  rw [runCore, iterate_again h₁, iterate_succ]
  cases closed with
  | none =>
    have h₂ : runCoreBody api ⟨.error, exitSuccess, co₁⟩ = .blocked := by
      change callApi api.closeServer exitFailure co₁ = .blocked
      rw [callApi, hclose]
      rfl
    rw [h₂]
    rfl
  | some co₂ =>
    have h₂ : runCoreBody api ⟨.error, exitSuccess, co₁⟩ = .again ⟨.exit, exitFailure, co₂⟩ :=
      runCoreBody_again rfl hclose
    rw [h₂]
    rfl

end ScalableServer.Core
