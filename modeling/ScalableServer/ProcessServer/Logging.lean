import ScalableServer.ProcessServer.LogShares
import ScalableServer.ProcessServer.RunServer

/-! The process server beside its log file. The row that a step of a child logs goes to the copy of
the stream that this child has, and a process closes its copy when its `run_server` has returned. A
process that a signal ends loses what its copy buffers; these ends are not among the events. -/

namespace ScalableServer.ProcessServer

open ScalableServer.Foundations ScalableServer.Core

variable {M N : ℕ}

namespace System

def logs (h : Host) (s : System M N) : Event M N → Option (Fin N × LogRow)
  | .child i e =>
    match (s.children i).step h i s.conns e with
    | some (_, .postLog row) => some (i, row)
    | _ => none
  | _ => none

/-- What the processes may do to the file besides logging rows. -/
def Lets (s : System M N) : LogEvent N → Prop
  | .wait _ _ => False
  | .exitChild c => s.result (.child c) ≠ none
  | .exitParent => s.result .parent ≠ none
  | .fork _ | .put _ | .post _ => True

variable {h : Host} {s t : System M N} {e : Event M N}

lemma rows_of_step [NeZero M] (hstep : s.step h e = some t) :
    t.rows = s.rows ++ ((s.logs h e).map Prod.snd).toList ∧
      ∀ c row, s.logs h e = some (c, row) → row.pid = c ∧ row.Logged h := by
  cases e with
  | parent e =>
    obtain ⟨u, s', -, hcall, rfl⟩ := parent_of_step hstep
    exact ⟨(call_frame hcall).1.trans (List.append_nil _).symm,
      fun c row hrow => absurd hrow.symm (Option.some_ne_none _)⟩
  | child i e =>
    obtain ⟨⟨c, a⟩, hc, hmap⟩ := Option.bind_eq_some_iff.mp hstep
    obtain ⟨s', hact, rfl⟩ := Option.map_eq_some_iff.mp hmap
    have hrows : s'.rows = s.rows ++ a.logged := act_rows hact
    simp only [logs, hc]
    cases Child.steps_of_step hc with
    | @postLog prior n t hpc =>
      refine ⟨hrows, fun d row hrow => ?_⟩
      obtain ⟨rfl, rfl⟩ := Prod.mk.inj (Option.some.inj hrow)
      exact ⟨rfl, _, _, _, _, rfl⟩
    | _ => exact ⟨hrows, fun d row hrow => absurd hrow.symm (Option.some_ne_none _)⟩
  | deliver id bytes | hangup id =>
    obtain rfl := Option.some.inj hstep
    exact ⟨(List.append_nil _).symm, fun c row hrow => absurd hrow.symm (Option.some_ne_none _)⟩

end System

structure Logging (M N : ℕ) where
  server : System M N
  file : LogFile N

inductive LoggingEvent (M N : ℕ)
  | server (e : Event M N)
  | file (e : LogEvent N)

namespace Logging

def step [NeZero M] (h : Host) (capacity : ℕ) (s : Logging M N) :
    LoggingEvent M N → Option (Logging M N)
  | .server e =>
    (s.server.step h e).bind fun server =>
      match s.server.logs h e with
      | none => some { s with server := server }
      | some (c, row) => (s.file.step capacity rowText (.wait c row)).map fun file => ⟨server, file⟩
  | .file e => (s.file.step capacity rowText e).map fun file => { s with file := file }

def machine [NeZero M] (h : Host) (capacity : ℕ) : Machine (Logging M N) (LoggingEvent M N) :=
  ⟨step h capacity⟩

def Allowed (s : Logging M N) : LoggingEvent M N → Prop
  | .server _ => True
  | .file e => s.server.Lets e

structure Recorded (h : Host) (capacity : ℕ) (start : System M N) [NeZero M] (s : Logging M N) :
    Prop where
  server : (System.machine h).Reaches (fun _ _ => True) start s.server
  file : (LogFile.machine capacity rowText).Reaches (fun _ e => e.Signed) (.initial capacity) s.file
  rows : s.file.logged = s.server.rows
  logged : ∀ row ∈ s.server.rows, row.Logged h

variable [NeZero M] {h : Host} {capacity : ℕ} {start : System M N} {s t : Logging M N}

lemma Recorded.fileStep {e : LogEvent N} {file : LogFile N} (hcapacity : 256 ≤ capacity)
    (hs : s.Recorded h capacity start) (he : e.Signed)
    (hstep : s.file.step capacity rowText e = some file) :
    file.logged = s.server.rows ++ e.rows ∧
      (LogFile.machine capacity rowText).Reaches (fun _ e => e.Signed) (.initial capacity) file := by
  obtain ⟨written, hshared, -⟩ := LogFile.reaches_shared hcapacity hs.file
  obtain ⟨p, out, hwrites⟩ := LogFile.writes_of_step hshared.parent he hstep
  exact ⟨hs.rows ▸ hwrites.logged, hs.file.tail ⟨e, he, hstep⟩⟩

lemma Recorded.step {e : LoggingEvent M N} (hcapacity : 256 ≤ capacity)
    (hs : s.Recorded h capacity start) (hallowed : s.Allowed e)
    (hstep : s.step h capacity e = some t) : t.Recorded h capacity start := by
  cases e with
  | server e =>
    obtain ⟨server, hserver, hfile⟩ := Option.bind_eq_some_iff.mp hstep
    obtain ⟨hrows, hlogs⟩ := System.rows_of_step hserver
    have hreach := hs.server.tail ⟨e, trivial, hserver⟩
    cases hlog : s.server.logs h e with
    | none =>
      simp only [hlog] at hrows hfile
      obtain rfl := Option.some.inj hfile
      have hsame : server.rows = s.server.rows := hrows.trans (List.append_nil _)
      exact ⟨hreach, hs.file, hs.rows.trans hsame.symm, fun row hrow => hs.logged row (hsame ▸ hrow)⟩
    | some p =>
      obtain ⟨c, row⟩ := p
      simp only [hlog] at hrows hfile
      obtain ⟨file, hwait, rfl⟩ := Option.map_eq_some_iff.mp hfile
      obtain ⟨hpid, hlogged⟩ := hlogs c row hlog
      obtain ⟨hfileRows, hfileReach⟩ := hs.fileStep hcapacity (e := .wait c row) hpid hwait
      refine ⟨hreach, hfileReach, hfileRows.trans hrows.symm, fun r hr => ?_⟩
      change r ∈ server.rows at hr
      rw [hrows] at hr
      rcases List.mem_append.mp hr with hr | hr
      · exact hs.logged r hr
      · exact List.mem_singleton.mp hr ▸ hlogged
  | file e =>
    obtain ⟨file, hfile, rfl⟩ := Option.map_eq_some_iff.mp hstep
    -- the rows come from the steps of the server alone
    have hnone : e.Signed ∧ e.rows = [] := by
      cases e with
      | wait c row => exact hallowed.elim
      | _ => exact ⟨trivial, rfl⟩
    obtain ⟨hfileRows, hfileReach⟩ := hs.fileStep hcapacity hnone.1 hfile
    rw [hnone.2, List.append_nil] at hfileRows
    exact ⟨hs.server, hfileReach, hfileRows, hs.logged⟩

lemma reaches_recorded (hcapacity : 256 ≤ capacity) (hstart : start.rows = [])
    (hrun : (machine h capacity).Reaches Allowed ⟨start, .initial capacity⟩ s) :
    s.Recorded h capacity start := by
  refine hrun.invariant (I := Recorded h capacity start) ⟨.refl, .refl, ?_, ?_⟩
    fun _ _ _ hs hallowed hstep => hs.step hcapacity hallowed hstep
  · rw [LogFile.initial_eq hcapacity]
    exact hstart.symm
  · change ∀ row ∈ start.rows, _
    rw [hstart]
    exact fun row hrow => absurd hrow List.not_mem_nil

end Logging

namespace LogFile

structure Serving (s : LogFile N) (rows : List LogRow) : Prop where
  parent : ∃ buffer, s.parent = some buffer
  children : ∀ c, ∃ buffer, s.children c = .running buffer
  logSem : s.logSem = 1
  logged : s.logged = rows

variable {s t : LogFile N} {e : LogEvent N} {c : Fin N} {server : System M N} {capacity : ℕ}
  {rows : List LogRow}

abbrev Runs (server : System M N) (capacity : ℕ) : LogFile N → LogFile N → Prop :=
  (machine capacity rowText).Reaches fun _ e => server.Lets e

lemma runs_step (hstep : step capacity rowText s e = some t) (hlets : server.Lets e) :
    Runs server capacity s t :=
  .single ⟨e, hlets, hstep⟩

lemma runs_puts (server : System M N) (capacity : ℕ) {rest buffer : List UInt8}
    (hc : s.children c = .logging rest buffer) : ∃ t buffer', Runs server capacity s t ∧
      t.children = Function.update s.children c (.logging [] buffer') ∧ t.parent = s.parent ∧
        t.logSem = s.logSem ∧ t.logged = s.logged := by
  induction rest generalizing s buffer with
  | nil => exact ⟨s, buffer, .refl, (hc ▸ Function.update_eq_self c s.children).symm, rfl, rfl, rfl⟩
  | cons b rest ih =>
    let s₁ := { s.setChild c (.logging rest (putChar capacity b buffer).2) with
      file := s.file ++ (putChar capacity b buffer).1 }
    have hput : step capacity rowText s (.put c) = some s₁ := by simp only [step, hc, s₁]
    have hc₁ : s₁.children c = .logging rest (putChar capacity b buffer).2 :=
      Function.update_self _ _ _
    obtain ⟨t, buffer', ht, hchildren, hrest⟩ := ih hc₁
    refine ⟨t, buffer', (runs_step hput trivial).trans ht, hchildren.trans ?_,
      hrest⟩
    exact Function.update_idem _ _ _

lemma Serving.log (hs : s.Serving rows) (server : System M N) (capacity : ℕ) (c : Fin N)
    (row : LogRow) : ∃ s₁, step capacity rowText s (.wait c row) = some s₁ ∧
      ∃ t, Runs server capacity s₁ t ∧ t.Serving (rows ++ [row]) := by
  obtain ⟨buffer, hc⟩ := hs.children c
  let s₁ := { s.setChild c (.logging (rowText row) buffer) with
    logSem := s.logSem - 1, logged := s.logged ++ [row] }
  have hwait : step capacity rowText s (.wait c row) = some s₁ := by
    simp [step, hc, hs.logSem, s₁]
  have hc₁ : s₁.children c = .logging (rowText row) buffer := Function.update_self _ _ _
  obtain ⟨t, buffer', ht, hchildren, hparent, hlogSem, hlogged⟩ := runs_puts server capacity hc₁
  have hlast : t.children c = .logging [] buffer' := by rw [hchildren, Function.update_self]
  have hpost : step capacity rowText t (.post c) = some
      { t.setChild c (.running buffer') with logSem := t.logSem + 1 } := by
    simp only [step, hlast]
  refine ⟨s₁, hwait, _, ht.trans (runs_step hpost trivial), ?_, fun d => ?_, ?_, ?_⟩
  · obtain ⟨buffer₀, hbuffer⟩ := hs.parent
    exact ⟨buffer₀, hparent.trans hbuffer⟩
  · change ∃ b, Function.update t.children c (.running buffer') d = .running b
    by_cases hdc : d = c
    · subst hdc
      exact ⟨buffer', Function.update_self _ _ _⟩
    · obtain ⟨b, hb⟩ := hs.children d
      refine ⟨b, ?_⟩
      rw [Function.update_of_ne hdc, hchildren, Function.update_of_ne hdc]
      exact (Function.update_of_ne hdc _ _).trans hb
  · change t.logSem + 1 = 1
    rw [hlogSem]
    change s.logSem - 1 + 1 = 1
    rw [hs.logSem]
  · change t.logged = rows ++ [row]
    rw [hlogged, ← hs.logged]

lemma runs_each (server : System M N) (capacity : ℕ) (before after : LogChild → Prop)
    (I : LogFile N → Prop) (hs : I s) (hbefore : ∀ c, before (s.children c))
    (hstep : ∀ (t : LogFile N) c, I t → (∀ d < c, after (t.children d)) → before (t.children c) →
      ∃ u child, Runs server capacity t u ∧ I u ∧ after child ∧
        u.children = Function.update t.children c child) :
    ∃ t, Runs server capacity s t ∧ I t ∧ ∀ c, after (t.children c) := by
  have hprefix : ∀ k ≤ N, ∃ t, Runs server capacity s t ∧ I t ∧
      (∀ c : Fin N, c < k → after (t.children c)) ∧ ∀ c : Fin N, k ≤ c → before (t.children c) := by
    intro k
    induction k with
    | zero =>
      intro _
      exact ⟨s, .refl, hs, fun c hc => absurd hc (Nat.not_lt_zero _), fun c _ => hbefore c⟩
    | succ k ih =>
      intro hk
      obtain ⟨t, ht, hi, hdone, hrest⟩ := ih (by omega)
      obtain ⟨u, child, hu, hiu, hchild, hchildren⟩ :=
        hstep t ⟨k, hk⟩ hi (fun d hd => hdone d hd) (hrest ⟨k, hk⟩ (le_refl k))
      refine ⟨u, ht.trans hu, hiu, fun c hc => ?_, fun c hc => ?_⟩
      · rw [hchildren]
        by_cases hck : c = ⟨k, hk⟩
        · rw [hck, Function.update_self]
          exact hchild
        · have hne : c.val ≠ k := fun h => hck (Fin.ext h)
          rw [Function.update_of_ne hck]
          exact hdone c (by omega)
      · have hck : c ≠ ⟨k, hk⟩ := by
          rintro rfl
          exact absurd hc (by simp)
        rw [hchildren, Function.update_of_ne hck]
        exact hrest c (by omega)
  obtain ⟨t, ht, hi, hdone, -⟩ := hprefix N (le_refl N)
  exact ⟨t, ht, hi, fun c => hdone c c.isLt⟩

lemma runs_serving (server : System M N) (hcapacity : 256 ≤ capacity) :
    ∃ t : LogFile N, Runs server capacity (initial capacity) t ∧ t.Serving [] := by
  let I (t : LogFile N) : Prop := t.parent = some logHeader ∧ t.logSem = 1 ∧ t.logged = []
  have hstart : I (initial capacity) := by
    rw [initial_eq hcapacity]
    exact ⟨rfl, rfl, rfl⟩
  obtain ⟨t, ht, ⟨hparent, hlogSem, hlogged⟩, hchildren⟩ := runs_each server capacity (· = .unborn)
    (fun child => ∃ buffer, child = .running buffer) I hstart (fun c => rfl) (by
      rintro t c ⟨hparent, hrest⟩ hbefore hc
      have hborn : ∀ d < c, t.children d ≠ .unborn := by
        intro d hd hunborn
        obtain ⟨buffer, hbuffer⟩ := hbefore d hd
        rw [hunborn] at hbuffer
        cases hbuffer
      have hfork : step capacity rowText t (.fork c) = some (t.setChild c (.running logHeader)) := by
        simp only [step, hparent, hc, if_pos hborn]
      exact ⟨_, _, runs_step hfork trivial, ⟨hparent, hrest⟩, ⟨_, rfl⟩, rfl⟩)
  exact ⟨t, ht, ⟨_, hparent⟩, hchildren, hlogSem, hlogged⟩

lemma Serving.exit (hs : s.Serving rows) (hover : ∀ p, server.result p ≠ none) (capacity : ℕ) :
    ∃ t, Runs server capacity s t ∧ t.Complete := by
  obtain ⟨t, ht, ⟨buffer, hparent⟩, hchildren⟩ := runs_each server capacity
    (fun child => ∃ buffer, child = .running buffer) (· = .exited)
    (fun t => ∃ buffer, t.parent = some buffer) hs.parent hs.children (by
      rintro t c hi - ⟨buffer, hc⟩
      have hexit : step capacity rowText t (.exitChild c) = some
          { t.setChild c .exited with file := t.file ++ buffer } := by
        simp only [step, hc]
      exact ⟨_, .exited, runs_step hexit (hover (.child c)), hi, rfl, rfl⟩)
  have hexit : step capacity rowText t .exitParent = some
      { t with file := t.file ++ buffer, parent := none } := by
    simp only [step, hparent]
  exact ⟨_, ht.trans (runs_step hexit (hover .parent)), rfl, hchildren⟩

end LogFile

namespace Logging

variable [NeZero M] {h : Host} {capacity : ℕ} {start server : System M N}

lemma reaches_runs {s t : LogFile N} (hruns : LogFile.Runs server capacity s t) :
    (machine h capacity).Reaches Allowed ⟨server, s⟩ ⟨server, t⟩ := by
  refine hruns.lift (fun file => (⟨server, file⟩ : Logging M N)) ?_
  rintro a b ⟨e, hlets, hstep⟩
  exact ⟨.file e, hlets, Option.map_eq_some_iff.mpr ⟨b, hstep, rfl⟩⟩

lemma reaches_serving (hcapacity : 256 ≤ capacity) (hstart : start.rows = [])
    (hs : (System.machine h).Reaches (fun _ _ => True) start server) :
    ∃ file, (machine h capacity).Reaches Allowed ⟨start, .initial capacity⟩ ⟨server, file⟩ ∧
      file.Serving server.rows := by
  refine hs.invariant (I := fun server => ∃ file,
    (machine h capacity).Reaches Allowed ⟨start, .initial capacity⟩ ⟨server, file⟩ ∧
      file.Serving server.rows) ?_ ?_
  · obtain ⟨file, hfile, hserving⟩ := LogFile.runs_serving start hcapacity
    exact ⟨file, reaches_runs hfile, hstart ▸ hserving⟩
  · rintro a e b ⟨file, hfile, hserving⟩ - hstep
    have hrows := (System.rows_of_step hstep).1
    cases hlog : a.logs h e with
    | none =>
      have hserver : step h capacity ⟨a, file⟩ (.server e) = some ⟨b, file⟩ :=
        Option.bind_eq_some_iff.mpr ⟨b, hstep, by simp only [hlog]⟩
      have hb : b.rows = a.rows := by rw [hrows, hlog]; exact List.append_nil _
      exact ⟨file, hfile.tail ⟨.server e, trivial, hserver⟩, hb ▸ hserving⟩
    | some p =>
      obtain ⟨c, row⟩ := p
      obtain ⟨file₁, hwait, file₂, hruns, hserving'⟩ := hserving.log b capacity c row
      have hserver : step h capacity ⟨a, file⟩ (.server e) = some ⟨b, file₁⟩ :=
        Option.bind_eq_some_iff.mpr ⟨b, hstep, by simp only [hlog, hwait, Option.map_some]⟩
      have hb : b.rows = a.rows ++ [row] := by rw [hrows, hlog]; rfl
      exact ⟨file₂, (hfile.tail ⟨.server e, trivial, hserver⟩).trans (reaches_runs hruns),
        hb ▸ hserving'⟩

end Logging

theorem processServer_log_file [NeZero M] {h : Host} (hctime : h.PrintsTimes) {capacity : ℕ}
    (hcapacity : 256 ≤ capacity) (listenFd pipeFd : ℤ) (others childOthers : ℤ → Bool)
    (conns : ℕ → Conn) :
    let start : System M N := .initial listenFd pipeFd others childOthers conns
    (∀ server, (System.machine h).Reaches (fun _ _ => True) start server →
      ∃ file, (Logging.machine h capacity).Reaches Logging.Allowed ⟨start, .initial capacity⟩
          ⟨server, file⟩ ∧
        ((∀ p, server.result p ≠ none) → file.Complete)) ∧
    ∀ s, (Logging.machine h capacity).Reaches Logging.Allowed ⟨start, .initial capacity⟩ s →
      s.file.Complete →
      (System.machine h).Reaches (fun _ _ => True) start s.server ∧
        let rows : Option (Fin N) → List LogRow := LogFile.rowsOf s.server.rows
        Interleaves rows s.server.rows ∧
          Interleaves (fun p => LogFile.text rowText (rows p)) s.file.file ∧
          (LogFile.Small capacity rowText rows → (∀ row ∈ s.server.rows, row.InRange) →
            ∃ order : List (Option (Fin N)), order.Nodup ∧ (∀ p, p ∈ order) ∧
              (s.file.records.filter (· = logColumns)).length = N + 1 ∧
                logFormat.readRows (s.file.records.filter (· ≠ logColumns)) =
                  some (order.flatMap rows)) := by
  intro start
  refine ⟨fun server hserver => ?_, fun s hrun hdone => ?_⟩
  · obtain ⟨file, hfile, hserving⟩ := Logging.reaches_serving hcapacity rfl hserver
    by_cases hover : ∀ p, server.result p ≠ none
    · obtain ⟨last, hruns, hdone⟩ := hserving.exit hover capacity
      exact ⟨last, hfile.trans (Logging.reaches_runs hruns), fun _ => hdone⟩
    · exact ⟨file, hfile, fun hall => absurd hall hover⟩
  · have hrecorded := Logging.reaches_recorded hcapacity rfl hrun
    obtain ⟨hsigned, hfile, horder⟩ := hdone.interleaves hcapacity hrecorded.file
    rw [hrecorded.rows] at hsigned hfile horder
    refine ⟨hrecorded.server, LogFile.interleaves_rowsOf hsigned, hfile, fun hsmall hrange => ?_⟩
    obtain ⟨order, hnodup, hall, hfile⟩ := horder hsmall
    have hfits : ∀ p : Option (Fin N), ∀ row ∈ LogFile.rowsOf s.server.rows p, logFormat.Fits row := by
      intro p row hrow
      have hmem := (LogFile.rowsOf_sublist s.server.rows p).subset hrow
      exact (hrecorded.logged row hmem).fits hctime (hrange row hmem)
    obtain ⟨hheaders, hread⟩ := LogFile.rows_of_records hfits (LogFile.records_eq hfile hfits)
    have hlength : order.length = N + 1 := by
      have huniv : order.toFinset = Finset.univ :=
        Finset.eq_univ_iff_forall.mpr (by simpa using hall)
      rw [← List.toFinset_card_of_nodup hnodup, huniv, Finset.card_univ, Fintype.card_option,
        Fintype.card_fin]
    exact ⟨order, hnodup, hall, hheaders.trans hlength, hread⟩

theorem processServer_log_file_one_row :
    let h : Host := ⟨.little, fun _ => true, fun _ => "Thu Jan  1 00:00:00 1970\n".toList⟩
    let row := cLogRow h 1 { clientAddr := ⟨1, 2⟩, clientFdLocal := 4, clientFdParent := 6 } 0 {}
    let start : System maxConnections numChildProcesses :=
      .initial 5 4 System.parentDescriptors System.childDescriptors fun _ => emptyMessage
    ∃ s, (Logging.machine h 4096).Reaches Logging.Allowed ⟨start, .initial 4096⟩ s ∧
      s.file.Complete ∧ s.server.rows = [row] ∧
        (s.file.records.filter (· = logColumns)).length = 9 ∧
          logFormat.readRows (s.file.records.filter (· ≠ logColumns)) = some [row] := by
  intro h row start
  have hctime : h.PrintsTimes := fun _ => ⟨"Thu Jan  1 00:00:00 1970".toList, by decide, rfl⟩
  let children := List.finRange numChildProcesses
  let served : List (Event maxConnections numChildProcesses) :=
    oneClient 8 ++ [.child 1 (.run 0 {}), .child 1 (.run 0 {})] ++
      children.flatMap (fun i => [.child i .signal, .child i (.run 0 {})]) ++
      List.replicate (maxConnections + 1) (.parent .run) ++ [.parent .signal, .parent .run]
  have hserved : ((System.machine h).runWithin (fun _ _ => True) served start).map
      (fun s => (s.rows, s.parent.result.isSome, children.all fun i =>
        (s.children i).result.isSome)) = some ([row], true, true) := by decide +kernel
  obtain ⟨server, hserver, hval⟩ := Option.map_eq_some_iff.mp hserved
  simp only [Prod.mk.injEq, List.all_eq_true] at hval
  obtain ⟨hrows, hparent, hchildren⟩ := hval
  have hover : ∀ p, server.result p ≠ none := by
    intro p
    cases p with
    | parent => exact Option.isSome_iff_ne_none.mp hparent
    | child i => exact Option.isSome_iff_ne_none.mp (hchildren i (List.mem_finRange i))
  obtain ⟨hlogged, hread⟩ := @processServer_log_file maxConnections numChildProcesses _ h hctime 4096
    (by decide) 5 4 System.parentDescriptors System.childDescriptors fun _ => emptyMessage
  obtain ⟨file, hrun, hdone⟩ := hlogged server (Machine.reaches_of_runWithin hserver)
  obtain ⟨-, hparts, -, hrecords⟩ := hread ⟨server, file⟩ hrun (hdone hover)
  obtain ⟨order, hnodup, hall, hheaders, hfound⟩ := hrecords
    (LogFile.small_of_text (by
      rw [hrows]
      decide +kernel))
    (by
      rw [hrows]
      decide)
  have horder : order.flatMap (LogFile.rowsOf server.rows) = [row] :=
    List.perm_singleton.mp (hrows ▸ hparts.perm hnodup hall)
  exact ⟨⟨server, file⟩, hrun, hdone hover, hrows, hheaders, hfound.trans (congrArg some horder)⟩

end ScalableServer.ProcessServer
