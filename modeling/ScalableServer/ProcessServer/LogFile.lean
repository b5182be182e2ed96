import ScalableServer.Foundations.Stdio
import ScalableServer.Foundations.Transitions
import ScalableServer.Foundations.Updates
import ScalableServer.ProcessServer.Objects
import Mathlib.Algebra.BigOperators.Fin

/-! `co->log_file` in the processes of the process server: `setup_process_server` puts the header
into it, `fork_child_processes` duplicates it with what it buffers, `c_log` puts rows into it and
`destroy_core_object` closes it. `rowText` is what `fprintf` makes of a row. -/

namespace ScalableServer.ProcessServer

open ScalableServer.Foundations

variable {N : ℕ}

def logHeader : List UInt8 :=
  ("process id,local file descriptor,parent file descriptor,ipv4 address,port number,bytes read," ++
    "start timestamp,end timestamp,elapsed time (s),time index\n").toList.map fun c =>
      c.toNat.toUInt8

/-- A child and its copy of the stream; `rest` is what `fprintf` has still to put of a row. -/
inductive LogChild
  | unborn
  | running (buffer : List UInt8)
  | logging (rest buffer : List UInt8)
  | exited
  deriving DecidableEq

structure LogFile (N : ℕ) where
  file : List UInt8
  parent : Option (List UInt8)
  children : Fin N → LogChild := fun _ => .unborn
  logSem : ℕ := 1
  logged : List LogRow := []

inductive LogEvent (N : ℕ)
  | fork (c : Fin N)
  | wait (c : Fin N) (row : LogRow)
  | put (c : Fin N)
  | post (c : Fin N)
  | exitChild (c : Fin N)
  | exitParent

namespace LogFile

def setChild (s : LogFile N) (c : Fin N) (child : LogChild) : LogFile N :=
  { s with children := Function.update s.children c child }

def initial (capacity : ℕ) : LogFile N where
  file := (putText capacity logHeader []).1
  parent := some (putText capacity logHeader []).2

def step (capacity : ℕ) (rowText : LogRow → List UInt8) (s : LogFile N) :
    LogEvent N → Option (LogFile N)
  | .fork c =>
    match s.parent, s.children c with
    | some buffer, .unborn =>
      if ∀ d < c, s.children d ≠ .unborn then some (s.setChild c (.running buffer)) else none
    | _, _ => none
  | .wait c row =>
    match s.children c with
    | .running buffer =>
      if 0 < s.logSem then
        some { s.setChild c (.logging (rowText row) buffer) with
               logSem := s.logSem - 1, logged := s.logged ++ [row] }
      else none
    | _ => none
  | .put c =>
    match s.children c with
    | .logging (b :: rest) buffer =>
      let (written, buffer) := putChar capacity b buffer
      some { s.setChild c (.logging rest buffer) with file := s.file ++ written }
    | _ => none
  | .post c =>
    match s.children c with
    | .logging [] buffer => some { s.setChild c (.running buffer) with logSem := s.logSem + 1 }
    | _ => none
  | .exitChild c =>
    match s.children c with
    | .running buffer => some { s.setChild c .exited with file := s.file ++ buffer }
    | _ => none
  | .exitParent =>
    match s.parent with
    | some buffer => some { s with file := s.file ++ buffer, parent := none }
    | none => none

def machine (capacity : ℕ) (rowText : LogRow → List UInt8) : Machine (LogFile N) (LogEvent N) :=
  ⟨step capacity rowText⟩

structure Complete (s : LogFile N) : Prop where
  parent : s.parent = none
  children : ∀ c, s.children c = .exited

def Intact (rowText : LogRow → List UInt8) (s : LogFile N) : Prop :=
  ∃ rows : List LogRow, rows.Perm s.logged ∧ s.file = logHeader ++ rows.flatMap rowText

end LogFile

def LogChild.owed : LogChild → ℕ
  | .unborn => logHeader.length
  | .running buffer => buffer.length
  | .logging rest buffer => rest.length + buffer.length
  | .exited => 0

namespace LogFile

structure Accounts (rowText : LogRow → List UInt8) (s : LogFile N) : Prop where
  parent : ∀ buffer, s.parent = some buffer → buffer = logHeader
  bytes : s.file.length + (s.parent.getD []).length + ∑ c, (s.children c).owed =
    (N + 1) * logHeader.length + (s.logged.flatMap rowText).length

variable {capacity : ℕ} {rowText : LogRow → List UInt8} {s t : LogFile N} {e : LogEvent N}

lemma logHeader_length : logHeader.length = 150 := by decide +kernel

lemma putText_header (hcapacity : 256 ≤ capacity) :
    putText capacity logHeader [] = ([], logHeader) := by
  rw [putText_short (by rw [List.length_nil, logHeader_length]; omega), List.nil_append]

lemma initial_eq (hcapacity : 256 ≤ capacity) :
    (initial capacity : LogFile N) = { file := [], parent := some logHeader } := by
  rw [initial, putText_header hcapacity]

lemma initial_accounts (hcapacity : 256 ≤ capacity) :
    Accounts rowText (initial capacity : LogFile N) where
  parent buffer hbuffer := by
    simp only [initial_eq hcapacity, Option.some.injEq] at hbuffer
    exact hbuffer.symm
  bytes := by
    have howed : ∀ c : Fin N, ((initial capacity : LogFile N).children c).owed =
        logHeader.length := fun _ => rfl
    simp only [howed, Finset.sum_const, Finset.card_univ, Fintype.card_fin, smul_eq_mul]
    simp only [initial_eq hcapacity, List.length_nil, Option.getD_some, List.flatMap_nil,
      Nat.add_zero, Nat.zero_add]
    ring

lemma Accounts.child {c : Fin N} {child : LogChild} (hs : Accounts rowText s)
    (written : List UInt8) (rows : List LogRow) (hparent : t.parent = s.parent)
    (hchildren : t.children = Function.update s.children c child) (hfile : t.file = s.file ++ written)
    (hlogged : t.logged = s.logged ++ rows)
    (howed : written.length + child.owed = (s.children c).owed + (rows.flatMap rowText).length) :
    Accounts rowText t := by
  -- A step of one child: what it writes out and still owes is what it owed, with the rows that it
  -- begins.
  have hbytes := hs.bytes
  have hsum := sum_update LogChild.owed s.children c child
  refine ⟨hparent ▸ hs.parent, ?_⟩
  rw [hparent, hchildren, hfile, hlogged, List.length_append, List.flatMap_append,
    List.length_append]
  omega

lemma step_accounts (hs : Accounts rowText s) (hstep : step capacity rowText s e = some t) :
    Accounts rowText t := by
  cases e with
  | fork c =>
    simp only [step] at hstep
    split at hstep
    · rename_i buffer hparent hchild
      split_ifs at hstep
      obtain rfl := Option.some.inj hstep
      have hcopy : buffer.length = logHeader.length := by rw [hs.parent buffer hparent]
      refine hs.child [] [] rfl rfl (List.append_nil _).symm
        (List.append_nil _).symm ?_
      simp [hchild, LogChild.owed, hcopy]
    · cases hstep
  | wait c row =>
    simp only [step] at hstep
    split at hstep
    · rename_i buffer hchild
      split_ifs at hstep
      obtain rfl := Option.some.inj hstep
      refine hs.child [] _ rfl rfl (List.append_nil _).symm rfl ?_
      simp [hchild, LogChild.owed, Nat.add_comm]
    · cases hstep
  | put c =>
    simp only [step] at hstep
    split at hstep
    · rename_i b rest buffer hchild
      obtain rfl := Option.some.inj hstep
      have hput := @putChar_length capacity b buffer
      refine hs.child _ [] rfl rfl rfl (List.append_nil _).symm ?_
      simp only [hchild, LogChild.owed, List.length_cons, List.flatMap_nil, List.length_nil]
      omega
    · cases hstep
  | post c =>
    simp only [step] at hstep
    split at hstep
    · rename_i buffer hchild
      obtain rfl := Option.some.inj hstep
      refine hs.child [] [] rfl rfl (List.append_nil _).symm
        (List.append_nil _).symm ?_
      simp [hchild, LogChild.owed]
    · cases hstep
  | exitChild c =>
    simp only [step] at hstep
    split at hstep
    · rename_i buffer hchild
      obtain rfl := Option.some.inj hstep
      refine hs.child _ [] rfl rfl rfl (List.append_nil _).symm ?_
      simp [hchild, LogChild.owed]
    · cases hstep
  | exitParent =>
    simp only [step] at hstep
    split at hstep
    · rename_i buffer hparent
      obtain rfl := Option.some.inj hstep
      have hbytes := hs.bytes
      rw [hparent, Option.getD_some] at hbytes
      refine ⟨fun buffer hbuffer => (nomatch hbuffer), ?_⟩
      change (s.file ++ buffer).length + 0 + ∑ d, (s.children d).owed =
        _ + (s.logged.flatMap rowText).length
      rw [List.length_append]
      omega
    · cases hstep

lemma reaches_accounts (hcapacity : 256 ≤ capacity)
    (hrun : (machine capacity rowText).Reaches (fun _ _ => True) (initial capacity) s) :
    Accounts rowText s :=
  hrun.invariant (initial_accounts hcapacity) fun _ _ _ ha _ hstep => step_accounts ha hstep

lemma Complete.file_length (hs : Accounts rowText s) (hdone : s.Complete) :
    s.file.length = (N + 1) * logHeader.length + (s.logged.flatMap rowText).length := by
  have hbytes := hs.bytes
  have hnone : ∑ c, (s.children c).owed = 0 :=
    Finset.sum_eq_zero fun c _ => by rw [hdone.children c, LogChild.owed]
  rw [hdone.parent, hnone] at hbytes
  exact hbytes

lemma Intact.file_length (h : Intact rowText s) :
    s.file.length = logHeader.length + (s.logged.flatMap rowText).length := by
  obtain ⟨rows, hperm, hfile⟩ := h
  rw [hfile, List.length_append, (hperm.flatMap_right rowText).length_eq]

def serveAndExit (row : Option LogRow) : List (LogEvent numChildProcesses) :=
  (List.finRange numChildProcesses).map .fork ++
    (match row with
      | none => []
      | some row => [.wait 0 row, .put 0, .put 0, .post 0]) ++
    (List.finRange numChildProcesses).map .exitChild ++ [.exitParent]

lemma complete_of_exited {s : LogFile N} (hparent : s.parent = none)
    (hchildren : (List.finRange N).all (fun c => s.children c = .exited) = true) :
    s.Complete := by
  rw [List.all_eq_true] at hchildren
  exact ⟨hparent, fun c => by simpa using hchildren c (List.mem_finRange c)⟩

theorem not_log_intact :
    ¬ ∀ (capacity : ℕ) (rowText : LogRow → List UInt8) (s : LogFile numChildProcesses),
        256 ≤ capacity →
        (machine capacity rowText).Reaches (fun _ _ => True) (initial capacity) s → s.Complete →
        Intact rowText s := by
  intro hall
  have hrun : ((machine 4096 fun _ => []).runWithin (fun _ _ => True) (serveAndExit none)
      (initial 4096)).map (fun s => (s.parent,
        (List.finRange numChildProcesses).all fun c => s.children c = .exited)) =
      some (none, true) := by
    rw [initial_eq (by decide)]
    decide +kernel
  obtain ⟨s, hs, hval⟩ := Option.map_eq_some_iff.mp hrun
  obtain ⟨hparent, hchildren⟩ := Prod.mk.inj hval
  have hreach := Machine.reaches_of_runWithin hs
  have hdone := complete_of_exited hparent hchildren
  have hlen := hdone.file_length (reaches_accounts (by decide) hreach)
  have hintact := hall 4096 (fun _ => []) s (by decide) hreach hdone
  rw [hintact.file_length, logHeader_length] at hlen
  change 150 + _ = (8 + 1) * 150 + _ at hlen
  omega

theorem log_never_intact [NeZero N] (capacity : ℕ) (hcapacity : 256 ≤ capacity)
    (rowText : LogRow → List UInt8) (s : LogFile N)
    (hrun : (machine capacity rowText).Reaches (fun _ _ => True) (initial capacity) s)
    (hdone : s.Complete) : ¬ Intact rowText s := by
  intro hintact
  have hlen := hdone.file_length (reaches_accounts hcapacity hrun)
  rw [hintact.file_length, logHeader_length] at hlen
  have hchildren : 0 < N := NeZero.pos N
  omega

theorem log_never_intact_one_row :
    let row : LogRow := ⟨7, 5, 4, 1, 2, 3, [], [], 0, 0⟩
    ∃ s : LogFile numChildProcesses,
      (machine 4096 fun _ => [49, 10]).Reaches (fun _ _ => True) (initial 4096) s ∧ s.Complete ∧
        s.logged = [row] ∧ ¬ Intact (fun _ => [49, 10]) s := by
  intro row
  have hrun : ((machine 4096 fun _ => [49, 10]).runWithin (fun _ _ => True) (serveAndExit (some row))
      (initial 4096)).map (fun s => (s.logged, s.parent,
        (List.finRange numChildProcesses).all fun c => s.children c = .exited)) =
      some ([row], none, true) := by
    rw [initial_eq (by decide)]
    decide +kernel
  obtain ⟨s, hs, hval⟩ := Option.map_eq_some_iff.mp hrun
  simp only [Prod.mk.injEq] at hval
  obtain ⟨hlogged, hparent, hchildren⟩ := hval
  have hreach := Machine.reaches_of_runWithin hs
  have hdone := complete_of_exited hparent hchildren
  exact ⟨s, hreach, hdone, hlogged,
    log_never_intact 4096 (by decide) (fun _ => [49, 10]) s hreach hdone⟩

end LogFile

end ScalableServer.ProcessServer
