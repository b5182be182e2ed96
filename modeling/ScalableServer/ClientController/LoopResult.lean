import ScalableServer.ClientController.FanOut

/-! `loopCalls` are the calls of a run of `handle` with what the environment has made of them:
`starts` and `datas` are the results of the writes of START and of the data. -/

namespace ScalableServer.ClientController

open ScalableServer.Foundations ScalableServer.Core

inductive Call
  | poll (err : Option Errno)
  | accept (failed : Bool)
  | stdin (failed : Bool)
  | start (starts datas : List ℤ)
  deriving DecidableEq

def Call.Failed : Call → Prop
  | .poll err => ∃ e, err = some e ∧ e ≠ .EINTR
  | .accept failed | .stdin failed => failed = true
  | .start starts datas => -1 ∈ starts ∨ -1 ∈ datas

def Call.Forgets : Call → Prop
  | .start starts datas => -1 ∈ starts ∧ starts.getLastD 0 ≠ -1 ∧ -1 ∉ datas
  | _ => False

def acceptFails (accept : Except Errno ℤ) (s : State) : Bool :=
  match accept with
  | .error _ => true
  | .ok _ => MAX_CONNS ≤ s.numConns

def startCall (h : Host) (s : State) (w : World) : Call :=
  match writeAll (attempts s [commandWrite h start]) w with
  | none => .start [] []
  | some (starts, w) =>
    if starts.getLastD 0 = -1 then .start starts []
    else .start starts ((writeAll (attempts s (dataWrites h s)) w).elim [] Prod.fst)

def stdinCall (h : Host) (prior : List UInt8) (read : Except Errno (List UInt8)) (s : State)
    (w : World) : Call :=
  match read with
  | .error _ => .stdin true
  | .ok bs => if startsOn prior bs = some true then startCall h s w else .stdin false

def acceptCalls (p : Pass) (l : Loop) : List Call :=
  if l.revents.1 then [.accept (acceptFails p.accept l.state)] else []

def stdinCalls (h : Host) (p : Pass) (l : Loop) (w : World) : List Call :=
  if l.revents.2 then [stdinCall h p.prior p.read l.state w] else []

def pollCall (p : Pass) : Call :=
  match p.poll with
  | .error e => .poll (some e)
  | .ok _ => .poll none

def passCalls (h : Host) (p : Pass) (l : Loop) (w : World) : List Call :=
  pollCall p :: (acceptCalls p (pollFds p l) ++ stdinCalls h p (listenReady p (pollFds p l)) w)

def loopCalls (h : Host) : List Pass → Loop → World → List Call
  | [], _, _ => []
  | p :: ps, l, w =>
    if l.exit || p.quit then []
    else passCalls h p l w ++
      match handlePass h p l w with
      | none => []
      | some (l, w) => loopCalls h ps l w

def Required (calls : List Call) (r : ℤ) : Prop :=
  (r = ERROR ↔ ∃ c ∈ calls, c.Failed) ∧ (r = SUCCESS ↔ ∀ c ∈ calls, ¬ c.Failed)

/-- The order of the calls that makes the last one tell of all; `result` is what the uninitialised
variable holds. -/
def LastCallTells (result : ℤ) (calls : List Call) : Prop :=
  match calls.getLast? with
  | none => result = SUCCESS
  | some (.poll (some .EINTR)) => ∃ c ∈ calls, c.Failed
  | some last => (∃ c ∈ calls, c.Failed) → last.Failed ∧ ¬ last.Forgets

def Call.Reports : Call → Prop
  | .poll err => err ≠ none
  | .accept failed | .stdin failed => failed = true
  | .start starts datas => starts.getLastD 0 = -1 ∨ -1 ∈ datas

def Call.Leaves (c : Call) (r : ℤ) : Prop := (c.Reports → r = ERROR) ∧ (¬ c.Reports → r = SUCCESS)

variable {h : Host} {p : Pass} {passes : List Pass} {l l' : Loop} {s s' : State} {w w' : World}
  {r result : ℤ} {c : Call} {calls : List Call}

lemma handleAccept_leaves (accept : Except Errno ℤ) (s : State) :
    (Call.accept (acceptFails accept s)).Leaves (handleAccept accept s).1 := by
  cases accept with
  | error e => exact ⟨fun _ => rfl, fun hno => (hno rfl).elim⟩
  | ok fd =>
    rw [handleAccept]
    by_cases hfull : MAX_CONNS ≤ s.numConns
    · have hfails : acceptFails (.ok fd) s = true := decide_eq_true hfull
      rw [if_pos hfull]
      exact ⟨fun _ => rfl, fun hno => (hno hfails).elim⟩
    · have hfails : acceptFails (.ok fd) s = false := decide_eq_false hfull
      rw [if_neg hfull]
      exact ⟨fun hyes => by simp [Call.Reports, hfails] at hyes, fun _ => rfl⟩

lemma sendStart_eq (h : Host) (s : State) (w : World) :
    sendStart h s w = (writeAll (attempts s [commandWrite h start]) w).map fun (starts, w) =>
      (starts.getLastD 0, { s with started := true }, w) := by
  rw [sendStart, forEachConn_command, Option.map_map]
  rfl

lemma sendData_eq (h : Host) (s : State) (w : World) :
    sendData h s w = (writeAll (attempts s (dataWrites h s)) w).map fun (datas, w) =>
      (if -1 ∈ datas then -1 else 0, w) :=
  foldlM_writeEach s.acceptedFds (List.range s.numConns) 0 w

lemma startClients_leaves (hstart : startClients h s w = some (r, s', w')) :
    ((startCall h s w).Reports → r = ERROR) ∧ (¬ (startCall h s w).Reports → r = STARTED) := by
  rw [startClients, sendStart_eq] at hstart
  rw [startCall]
  cases hstarts : writeAll (attempts s [commandWrite h start]) w with
  | none => simp [hstarts] at hstart
  | some q =>
    obtain ⟨starts, w₁⟩ := q
    simp only [hstarts, Option.map_some] at hstart ⊢
    by_cases hlast : starts.getLastD 0 = -1
    · rw [if_pos hlast] at hstart ⊢
      obtain ⟨rfl, -⟩ := hstart
      exact ⟨fun _ => rfl, fun hno => (hno (.inl hlast)).elim⟩
    · rw [if_neg hlast, sendData_eq] at hstart
      rw [if_neg hlast]
      change ((writeAll (attempts s (dataWrites h s)) w₁).map _).map _ = _ at hstart
      cases hdatas : writeAll (attempts s (dataWrites h s)) w₁ with
      | none => simp [hdatas] at hstart
      | some q =>
        obtain ⟨datas, w₂⟩ := q
        simp only [hdatas, Option.map_some, Option.some.injEq, Prod.mk.injEq] at hstart
        obtain ⟨rfl, -⟩ := hstart
        by_cases hdata : -1 ∈ datas
        · rw [if_pos hdata]
          exact ⟨fun _ => rfl, fun hno => (hno (.inr hdata)).elim⟩
        · rw [if_neg hdata]
          exact ⟨fun hyes => (hyes.elim hlast hdata).elim, fun _ => rfl⟩

lemma handleStdin_leaves {prior : List UInt8} {read : Except Errno (List UInt8)}
    (hstdin : handleStdin h prior read s w = some (r, s', w')) :
    (stdinCall h prior read s w).Leaves (if r = STARTED then SUCCESS else r) := by
  cases read with
  | error e =>
    obtain ⟨rfl, -⟩ := Prod.mk.inj (Option.some.inj hstdin)
    exact ⟨fun _ => rfl, fun hno => (hno rfl).elim⟩
  | ok bs =>
    rw [handleStdin] at hstdin
    rw [stdinCall]
    by_cases hstart : startsOn prior bs = some true
    · rw [if_pos hstart] at hstdin ⊢
      obtain ⟨hyes, hno⟩ := startClients_leaves hstdin
      refine ⟨fun hreports => ?_, fun hreports => ?_⟩
      · rw [hyes hreports]
        rfl
      · rw [hno hreports]
        rfl
    · rw [if_neg hstart] at hstdin ⊢
      obtain ⟨rfl, -⟩ := Prod.mk.inj (Option.some.inj hstdin)
      exact ⟨fun hyes => (Bool.false_ne_true hyes).elim, fun _ => rfl⟩

lemma pollFds_leaves (hnone : (pollFds p l).revents = (false, false)) :
    (pollCall p).Leaves (pollFds p l).result := by
  rw [pollCall]
  rw [pollFds] at hnone ⊢
  cases hpoll : p.poll with
  | error e => exact ⟨fun _ => rfl, fun hno => (hno (Option.some_ne_none e)).elim⟩
  | ok revents =>
    rw [hpoll] at hnone
    obtain rfl : revents = (false, false) := hnone
    exact ⟨fun hyes => (hyes rfl).elim, fun _ => rfl⟩

lemma handlePass_leaves (hpass : handlePass h p l w = some (l', w')) :
    ∃ c, (passCalls h p l w).getLast? = some c ∧ c.Leaves l'.result := by
  rw [handlePass, stdinReady] at hpass
  rw [passCalls, List.getLast?_cons, List.getLast?_append]
  by_cases hin : (listenReady p (pollFds p l)).revents.2 = true
  · rw [if_pos hin] at hpass
    obtain ⟨⟨r, s, w₁⟩, hstdin, he⟩ := Option.map_eq_some_iff.mp hpass
    obtain ⟨rfl, -⟩ := Prod.mk.inj he
    rw [stdinCalls, if_pos hin]
    exact ⟨_, rfl, handleStdin_leaves hstdin⟩
  · rw [if_neg hin] at hpass
    obtain ⟨rfl, -⟩ := Prod.mk.inj (Option.some.inj hpass)
    rw [stdinCalls, if_neg hin]
    by_cases hlisten : (pollFds p l).revents.1 = true
    · rw [acceptCalls, if_pos hlisten, listenReady, if_pos hlisten]
      exact ⟨_, rfl, handleAccept_leaves p.accept (pollFds p l).state⟩
    · rw [acceptCalls, if_neg hlisten]
      rw [listenReady, if_neg hlisten] at hin ⊢
      refine ⟨_, rfl, pollFds_leaves ?_⟩
      rw [Bool.not_eq_true] at hin hlisten
      exact Prod.ext hlisten hin

lemma handleLoop_leaves (hrun : handleLoop h passes l w = some (l', w')) :
    match (loopCalls h passes l w).getLast? with
    | none => l'.result = l.result
    | some c => c.Leaves l'.result := by
  induction passes generalizing l w with
  | nil =>
    rw [handleLoop] at hrun
    split_ifs at hrun
    obtain ⟨rfl, -⟩ := Prod.mk.inj (Option.some.inj hrun)
    rfl
  | cons p ps ih =>
    rw [handleLoop] at hrun
    rw [loopCalls]
    split_ifs at hrun ⊢
    · obtain ⟨rfl, -⟩ := Prod.mk.inj (Option.some.inj hrun)
      rfl
    · obtain ⟨⟨l₁, w₁⟩, hpass, hrest⟩ := Option.bind_eq_some_iff.mp hrun
      obtain ⟨c, hc, hleaves⟩ := handlePass_leaves hpass
      have hih := ih hrest
      simp only [hpass, List.getLast?_append]
      cases hlast : (loopCalls h ps l₁ w₁).getLast? with
      | none =>
        rw [hlast] at hih
        rw [Option.none_or, hc]
        change c.Leaves l'.result
        rw [show l'.result = l₁.result from hih]
        exact hleaves
      | some c' =>
        rw [hlast] at hih
        exact hih

lemma required_nil_iff : Required [] r ↔ r = SUCCESS := by
  constructor
  · rintro ⟨-, hsuccess⟩
    exact hsuccess.mpr (by simp)
  · rintro rfl
    exact ⟨by simp [SUCCESS, ERROR], by simp⟩

lemma required_iff (hc : c.Leaves r) : Required calls r ↔ (c.Reports ↔ ∃ c ∈ calls, c.Failed) := by
  obtain ⟨hyes, hno⟩ := hc
  have hnone : (∀ c ∈ calls, ¬ c.Failed) ↔ ¬ ∃ c ∈ calls, c.Failed := by simp
  have hne : SUCCESS ≠ ERROR := by decide
  rw [Required, hnone]
  by_cases hreports : c.Reports
  · rw [hyes hreports]
    simp only [hreports, hne.symm, true_iff, false_iff, not_not, and_self]
  · rw [hno hreports]
    simp only [hreports, hne, true_iff, false_iff, and_self]

lemma reports_iff (hc : c ≠ .poll (some .EINTR)) : c.Reports ↔ c.Failed ∧ ¬ c.Forgets := by
  cases c with
  | poll err =>
    cases err with
    | none => simp [Call.Reports, Call.Failed]
    | some e =>
      have he : e ≠ .EINTR := fun he => hc (by rw [he])
      simp [Call.Reports, Call.Failed, Call.Forgets, he]
  | accept failed => simp [Call.Reports, Call.Failed, Call.Forgets]
  | stdin failed => simp [Call.Reports, Call.Failed, Call.Forgets]
  | start starts datas =>
    have hlast : starts.getLastD 0 = -1 → -1 ∈ starts := by
      intro he
      rw [List.getLastD_eq_getLast?] at he
      cases hl : starts.getLast? with
      | none =>
        rw [hl] at he
        exact absurd he (by decide)
      | some r =>
        rw [hl] at he
        exact List.mem_of_getLast? (hl.trans (congrArg some he))
    simp only [Call.Reports, Call.Failed, Call.Forgets]
    tauto

lemma lastCallTells_iff (hlast : calls.getLast? = some c) :
    LastCallTells result calls ↔ (c.Reports ↔ ∃ c ∈ calls, c.Failed) := by
  have hmem : c ∈ calls := List.mem_of_getLast? hlast
  by_cases hc : c = .poll (some .EINTR)
  · have hreports : c.Reports := by
      rw [hc]
      exact Option.some_ne_none _
    have htells : LastCallTells result calls ↔ ∃ c ∈ calls, c.Failed := by
      rw [LastCallTells, hlast, hc]
    rw [htells]
    tauto
  · have htells : LastCallTells result calls ↔
        ((∃ c ∈ calls, c.Failed) → c.Failed ∧ ¬ c.Forgets) := by
      rw [LastCallTells, hlast]
      cases c with
      | poll err =>
        cases err with
        | none => rfl
        | some e =>
          cases e with
          | EINTR => exact (hc rfl).elim
          | EBADF | other code => rfl
      | accept failed | stdin failed | start starts datas => rfl
    rw [htells, ← reports_iff hc]
    have hfailed : c.Reports → ∃ c ∈ calls, c.Failed :=
      fun hreports => ⟨c, hmem, ((reports_iff hc).mp hreports).1⟩
    exact ⟨fun htold => ⟨hfailed, htold⟩, Iff.mpr⟩

theorem handle_result_iff (h : Host) (passes : List Pass) (result : ℤ) (revents : Bool × Bool)
    (s : State) (w : World) (r : ℤ) (s' : State) (w' : World)
    (hrun : handle h passes result revents s w = some (r, s', w')) :
    Required (loopCalls h passes { result, revents, state := s } w) r ↔
      LastCallTells result (loopCalls h passes { result, revents, state := s } w) := by
  obtain ⟨⟨l, w₁⟩, hloop, he⟩ := Option.map_eq_some_iff.mp hrun
  obtain ⟨rfl, -⟩ := Prod.mk.inj he
  have hleaves := handleLoop_leaves hloop
  cases hlast : (loopCalls h passes { result, revents, state := s } w).getLast? with
  | none =>
    rw [hlast] at hleaves
    rw [LastCallTells, hlast, List.getLast?_eq_none_iff.mp hlast, required_nil_iff]
    exact iff_of_eq (congrArg (· = SUCCESS) hleaves)
  | some c =>
    rw [hlast] at hleaves
    rw [required_iff hleaves, lastCallTells_iff hlast]

def interruptedPasses : List Pass :=
  [{ poll := .error .EINTR }, { quit := true, poll := .ok (false, false) }]

theorem not_required :
    ¬ ∀ (h : Host) (passes : List Pass) (result : ℤ) (revents : Bool × Bool) (s : State) (w : World)
        (r : ℤ) (s' : State) (w' : World), handle h passes result revents s w = some (r, s', w') →
        Required (loopCalls h passes { result, revents, state := s } w) r := by
  intro hall
  let h : Host := ⟨.little, fun _ => true, fun _ => []⟩
  have hrun : handle h interruptedPasses 0 (false, false) twoClients (oneFails 5) =
      some (ERROR, twoClients, oneFails 5) := rfl
  have hcalls : loopCalls h interruptedPasses
      { result := 0, revents := (false, false), state := twoClients } (oneFails 5) =
      [.poll (some .EINTR)] := rfl
  have hrequired := hall _ _ _ _ _ _ _ _ _ hrun
  rw [hcalls] at hrequired
  obtain ⟨c, hc, hfailed⟩ := hrequired.1.mp rfl
  obtain rfl := List.mem_singleton.mp hc
  obtain ⟨e, he, hne⟩ := hfailed
  exact hne (Option.some.inj he).symm

theorem required_of_failed_accept :
    let h : Host := ⟨.little, fun _ => true, fun _ => []⟩
    let passes : List Pass := [{ poll := .ok (true, false), accept := .error .EBADF }]
    handle h passes 0 (false, false) twoClients (oneFails 5) =
        some (ERROR, twoClients, oneFails 5) ∧
      Required (loopCalls h passes
        { result := 0, revents := (false, false), state := twoClients } (oneFails 5)) ERROR := by
  intro h passes
  have hrun : handle h passes 0 (false, false) twoClients (oneFails 5) =
      some (ERROR, twoClients, oneFails 5) := rfl
  exact ⟨hrun, (handle_result_iff h passes 0 (false, false) twoClients (oneFails 5) _ _ _ hrun).mpr
    fun _ => ⟨rfl, id⟩⟩

end ScalableServer.ClientController
