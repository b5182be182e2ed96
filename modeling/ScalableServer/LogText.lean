import ScalableServer.Attribution
import ScalableServer.Client.Handle
import ScalableServer.Foundations.Printf

namespace ScalableServer

open ScalableServer.Foundations ScalableServer.Core

def Core.Host.PrintsTimes (h : Host) : Prop :=
  ∀ time, ∃ str, Plain str ∧ h.ctime time = str ++ ['\n']

lemma Core.Host.PrintsTimes.plain {h : Host} (hctime : h.PrintsTimes) (time : ℤ) :
    Plain (trimLast (h.ctime time)) := by
  obtain ⟨str, hplain, hstr⟩ := hctime time
  rwa [hstr, trimLast, List.dropLast_concat]

lemma plain_trimLast {str : List Char} (hstr : Plain str) : Plain (trimLast str) :=
  fun c hc => hstr c (List.mem_of_mem_dropLast hc)

abbrev RowColumns : Type := ℕ × ℤ × ℕ × ℕ × ℕ × List Char × List Char × ℤ

/-- `"%lu,%d,%s,%d,%lu,%s,%s,%lf\n"`, in the poll server and in the one-to-one server. -/
def columnsFormat : Format RowColumns :=
  decimal.and (signedDecimal.and (dotted.and (decimal.and (decimal.and
    (textColumn.and (textColumn.and seconds.last))))))

def rowFormat {R : Type} (columns : R ≃ RowColumns) : Format R := columnsFormat.iso columns

lemma rowFormat_fits {R : Type} {columns : R ≃ RowColumns} {row : R} {connIndex : ℕ} {fd : ℤ}
    {clientAddr clientPort bytes : ℕ} {startTime endTime : List Char} {elapsed : ℤ}
    (hrow : columns row = (connIndex, fd, clientAddr, clientPort, bytes, startTime, endTime, elapsed))
    (hplain : Plain startTime ∧ Plain endTime) (helapsed : elapsed.natAbs < 2 ^ 52) :
    (rowFormat columns).Fits row := by
  change columnsFormat.Fits (columns row)
  rw [hrow]
  exact ⟨trivial, trivial, trivial, trivial, trivial, hplain.1, hplain.2, helapsed⟩

namespace PollServer

def logHeader : List Char :=
  ("connection index,file descriptor,ipv4 address,port number,bytes read,start timestamp," ++
    "end timestamp,elapsed time (s)\n").toList

def LogRow.columns : LogRow ≃ RowColumns where
  toFun row := (row.connIndex, row.fd, row.clientAddr, row.clientPort, row.bytes, row.startTime,
    row.endTime, row.elapsed)
  invFun p := ⟨p.1, p.2.1, p.2.2.1, p.2.2.2.1, p.2.2.2.2.1, p.2.2.2.2.2.1, p.2.2.2.2.2.2.1,
    p.2.2.2.2.2.2.2⟩
  left_inv _ := rfl
  right_inv _ := rfl

def logFormat : Format LogRow := rowFormat LogRow.columns

def logColumns : List (List Char) :=
  ["connection index", "file descriptor", "ipv4 address", "port number", "bytes read",
    "start timestamp", "end timestamp", "elapsed time (s)"].map String.toList

def logText (rows : List LogRow) : List Char := logHeader ++ logFormat.text rows

variable {h : Host} {s t : Server} {e : Event} {i : Fin maxConnections} {listenFd : ℤ}
  {others : ℤ → Bool} {so : StateObject} {n prior : ℕ} {ti : Timing} {c : Conn} {r : Handled}

lemma logHeader_eq : logHeader = table [logColumns] := by decide +kernel

lemma timeColumns_plain (hctime : h.PrintsTimes) (startTime endTime : ℤ) :
    Plain (timeColumns h startTime endTime).1 ∧ Plain (timeColumns h startTime endTime).2 := by
  have hnull : Plain ['N', 'U', 'L', 'L'] := by decide
  simp only [timeColumns]
  split_ifs
  · exact ⟨hctime.plain _, hctime.plain _⟩
  · exact ⟨hctime.plain _, hnull⟩
  · exact ⟨hnull, hctime.plain _⟩
  · exact ⟨hnull, hnull⟩

lemma pollRecvAndLog_row (hr : pollRecvAndLog h so i prior ti c = some r) :
    ∀ row ∈ r.rows, ∃ n, row = log h so i n ti := by
  rw [pollRecvAndLog] at hr
  split at hr
  · cases hr
  · obtain rfl := Option.some.inj hr
    simp
  · simp only at hr
    split_ifs at hr
    · obtain rfl := Option.some.inj hr
      simp
    · split at hr
      · cases hr
      · obtain rfl := Option.some.inj hr
        simp
      · split at hr <;>
        · obtain rfl := Option.some.inj hr
          exact fun row hrow => ⟨_, List.mem_singleton.mp hrow⟩

lemma rows_plain (hctime : h.PrintsTimes)
    (hs : (server h).Reaches (fun _ _ => True) (initial listenFd others) s) :
    ∀ row ∈ s.rows, Plain row.startTime ∧ Plain row.endTime := by
  refine hs.invariant (I := fun s : Server => ∀ row ∈ s.rows, Plain row.startTime ∧ Plain row.endTime)
    (by rintro row ⟨⟩) ?_
  intro a e b ha _ hstep
  cases moves_of_step hstep with
  | serve hpc hin hc hr =>
    rw [served_rows]
    intro row hrow
    rcases List.mem_append.mp hrow with hrow | hrow
    · exact ha row hrow
    · obtain ⟨n, rfl⟩ := pollRecvAndLog_row hr row hrow
      exact timeColumns_plain hctime _ _
  | _ => exact ha

end PollServer

namespace OneToOne

def LogRow.columns : LogRow ≃ RowColumns where
  toFun row := (row.connIndex, row.fd, row.clientAddr, row.clientPort, row.bytes, row.startTime,
    row.endTime, row.elapsed)
  invFun p := ⟨p.1, p.2.1, p.2.2.1, p.2.2.2.1, p.2.2.2.2.1, p.2.2.2.2.2.1, p.2.2.2.2.2.2.1,
    p.2.2.2.2.2.2.2⟩
  left_inv _ := rfl
  right_inv _ := rfl

def logFormat : Format LogRow := rowFormat LogRow.columns

def logText (rows : List LogRow) : List Char := logFormat.text rows

variable {h : Host} {s t : Server} {e : Event} {listenFd : ℤ} {so : StateObject} {c : Conn}

lemma log_plain (hctime : h.PrintsTimes) (n : ℕ) (ti : Timing) :
    Plain (log h so n ti).startTime ∧ Plain (log h so n ti).endTime := by
  have hplain : Plain (trimLast (trimLast (h.ctime ti.endTime))) :=
    plain_trimLast (hctime.plain ti.endTime)
  exact ⟨hplain, hplain⟩

lemma receiveMessage_row {prior : ℕ} {ti : Timing} {r : Received}
    (hr : receiveMessage h so prior ti c = some r) :
    ∀ row ∈ r.rows, ∃ n, row = log h so n ti := by
  rw [receiveMessage] at hr
  split at hr
  · cases hr
  · split at hr
    · cases hr
    · obtain rfl := Option.some.inj hr
      simp
    · obtain rfl := Option.some.inj hr
      simp
    · simp only at hr
      split at hr
      · cases hr
      · obtain ⟨-, -, rfl⟩ := Option.map_eq_some_iff.mp hr
        exact fun row hrow => ⟨_, List.mem_singleton.mp hrow⟩
      · obtain rfl := Option.some.inj hr
        simp
  · obtain rfl := Option.some.inj hr
    simp

lemma handleClient_plain (hctime : h.PrintsTimes) {prior : ℕ → ℕ} {ti : ℕ → Timing}
    {r : ClientResult × Client} (hr : handleClient h so prior ti c = some r) :
    ∀ row ∈ r.2.rows, Plain row.startTime ∧ Plain row.endTime := by
  let I : Client → Prop := fun x => ∀ row ∈ x.rows, Plain row.startTime ∧ Plain row.endTime
  refine iterate_keeps (I := I) (Q := fun r => I r.2) (fun x hx => ?_) (by simp [I]) hr
  rw [handleClientBody]
  cases hreceive : receiveMessage h so (prior x.calls) (ti x.calls) x.conn with
  | none => trivial
  | some q =>
    have hrows : ∀ row ∈ x.rows ++ q.rows, Plain row.startTime ∧ Plain row.endTime := by
      intro row hrow
      rcases List.mem_append.mp hrow with hrow | hrow
      · exact hx row hrow
      · obtain ⟨n, rfl⟩ := receiveMessage_row hreceive row hrow
        exact log_plain hctime n _
    cases hresult : q.result <;> simp only [hresult] <;> exact hrows

lemma rows_plain (hctime : h.PrintsTimes)
    (hs : (server h).Reaches (fun _ _ => True) (initial listenFd) s) :
    ∀ row ∈ s.rows, Plain row.startTime ∧ Plain row.endTime := by
  refine hs.invariant (I := fun s : Server => ∀ row ∈ s.rows, Plain row.startTime ∧ Plain row.endTime)
    (by rintro row ⟨⟩) ?_
  intro a e b ha _ hstep
  cases e with
  | signal =>
    obtain rfl := Option.some.inj hstep
    exact ha
  | pass calls =>
    change step h a (.pass calls) = some b at hstep
    rw [step] at hstep
    split_ifs at hstep
    obtain ⟨-, hrows⟩ := acceptConn_clientAddr a calls
    rcases haccept : acceptConn a calls with ⟨u, r | c⟩ <;> rw [haccept] at hrows
    · simp only [pass, haccept, Option.some.injEq] at hstep
      rw [← hstep]
      exact hrows ▸ ha
    · simp only [pass, haccept] at hstep
      obtain ⟨⟨r, client⟩, hhandle, rfl⟩ := Option.map_eq_some_iff.mp hstep
      intro row hrow
      rcases List.mem_append.mp hrow with hrow | hrow
      · exact ha row (hrows ▸ hrow)
      · exact handleClient_plain hctime hhandle row hrow

end OneToOne

namespace Client

def csvHeader : List Char :=
  "TimeStamp, ThreadID, DataSize, ServerResponse, StartTime, EndTime, ElapsedTime\n".toList

def LogRow.columns : LogRow ≃ List Char × ℤ × ℕ × ℕ × List Char × List Char × ℤ where
  toFun row := (row.timeStamp, row.threadId, row.dataSize, row.serverResp, row.startTime,
    row.endTime, row.elapsed)
  invFun p := ⟨p.1, p.2.1, p.2.2.1, p.2.2.2.1, p.2.2.2.2.1, p.2.2.2.2.2.1, p.2.2.2.2.2.2⟩
  left_inv _ := rfl
  right_inv _ := rfl

/-- `"%s, %d, %u, %u, %s, %s, %lf\n"`. -/
def logFormat : Format LogRow :=
  (textColumn.and (signedDecimal.spaced.and (decimal.spaced.and (decimal.spaced.and
    (textColumn.spaced.and (textColumn.spaced.and seconds.spaced.last)))))).iso LogRow.columns

def logColumns : List (List Char) :=
  ["TimeStamp", " ThreadID", " DataSize", " ServerResponse", " StartTime", " EndTime",
    " ElapsedTime"].map String.toList

/-- `init_logger` writes the header with the NUL after it. -/
def logText (rows : List LogRow) : List Char := csvHeader ++ '\x00' :: logFormat.text rows

def LogRow.withNul (row : LogRow) : LogRow := { row with timeStamp := '\x00' :: row.timeStamp }

variable {h : Host} {l : Logger} {row : LogRow} {rows : List LogRow}

lemma csvHeader_eq : csvHeader = table [logColumns] := by decide +kernel

lemma log_fits (hctime : h.PrintsTimes) (timeStamp : ℤ) (hstart : l.startTime ≠ 0)
    (hend : l.endTime ≠ 0) (helapsed : l.elapsed.natAbs < 2 ^ 52) :
    logFormat.Fits (log h timeStamp l) := by
  have hplain : Plain (trimLast (h.ctime l.endTime)) := hctime.plain l.endTime
  have hrow : log h timeStamp l =
      { timeStamp := trimLast (h.ctime l.endTime), threadId := l.threadId, dataSize := l.dataSize
        serverResp := l.serverResp, startTime := trimLast (h.ctime l.endTime)
        endTime := trimLast (h.ctime l.endTime), elapsed := l.elapsed } := by
    simp only [log, if_neg hstart, if_neg hend, if_pos hend]
  rw [hrow]
  exact ⟨hplain, trivial, trivial, trivial, hplain, hplain, helapsed⟩

lemma withNul_fits (hrow : logFormat.Fits row) : logFormat.Fits row.withNul := by
  obtain ⟨htime, hrest⟩ := hrow
  change Plain row.timeStamp at htime
  refine ⟨?_, hrest⟩
  change Plain ('\x00' :: row.timeStamp)
  exact htime.cons (by decide)

lemma logText_nil : readTable (logText []) = [logColumns] := by
  rw [logText, csvHeader_eq]
  decide +kernel

lemma logText_cons :
    logText (row :: rows) = table [logColumns] ++ logFormat.text (row.withNul :: rows) := by
  rw [logText, csvHeader_eq]
  exact congrArg (table [logColumns] ++ ·) (table_cons_char _ _ _ _).symm

end Client

variable {h : Host} {listenFd : ℤ} {others : ℤ → Bool}

lemma PollServer.log_reads_back {rows : List LogRow} (hrows : ∀ row ∈ rows, logFormat.Fits row) :
    readTable (logText rows) = logColumns :: rows.map logFormat.print ∧
      (∀ record ∈ readTable (logText rows), record.length = logColumns.length) ∧
        logFormat.readHeaded (logText rows) = some rows := by
  rw [logText, logHeader_eq]
  exact Format.readHeaded_text rfl (by decide) hrows

lemma OneToOne.log_reads_back {rows : List LogRow} (hrows : ∀ row ∈ rows, logFormat.Fits row) :
    logFormat.readRows (readTable (logText rows)) = some rows := by
  have hread := Format.readTable_text hrows []
  rw [List.append_nil] at hread
  rw [logText, hread]
  exact (congrArg _ (List.append_nil _)).trans (Format.readRows_print hrows)

lemma Client.log_reads_back {row : LogRow} {rows : List LogRow} (hrow : logFormat.Fits row)
    (hrows : ∀ row ∈ rows, logFormat.Fits row) :
    readTable (logText (row :: rows)) =
        logColumns :: logFormat.print row.withNul :: rows.map logFormat.print ∧
      (∀ record ∈ readTable (logText (row :: rows)), record.length = logColumns.length) ∧
        logFormat.readHeaded (logText (row :: rows)) = some (row.withNul :: rows) := by
  rw [logText_cons]
  refine Format.readHeaded_text rfl (by decide) fun a ha => ?_
  rcases List.mem_cons.mp ha with rfl | ha
  · exact withNul_fits hrow
  · exact hrows a ha

theorem logs_read_back (hctime : h.PrintsTimes) :
    (∀ s, (PollServer.server h).Reaches (fun _ _ => True) (PollServer.initial listenFd others) s →
      (∀ row ∈ s.rows, row.elapsed.natAbs < 2 ^ 52) →
      let records := readTable (PollServer.logText s.rows)
      records = PollServer.logColumns :: s.rows.map PollServer.logFormat.print ∧
        (∀ record ∈ records, record.length = PollServer.logColumns.length) ∧
          PollServer.logFormat.readHeaded (PollServer.logText s.rows) = some s.rows) ∧
    (∀ s, (OneToOne.server h).Reaches (fun _ _ => True) (OneToOne.initial listenFd) s →
      (∀ row ∈ s.rows, row.elapsed.natAbs < 2 ^ 52) →
      OneToOne.logFormat.readRows (readTable (OneToOne.logText s.rows)) = some s.rows) ∧
    ∀ calls : List (ℤ × Client.Logger),
      (∀ call ∈ calls, call.2.startTime ≠ 0 ∧ call.2.endTime ≠ 0 ∧
        call.2.elapsed.natAbs < 2 ^ 52) →
      let rows := calls.map fun call => Client.log h call.1 call.2
      (readTable (Client.logText rows)).head? = some Client.logColumns ∧
        (∀ record ∈ readTable (Client.logText rows), record.length = Client.logColumns.length) ∧
          Client.logFormat.readHeaded (Client.logText rows) =
            some (rows.head?.toList.map Client.LogRow.withNul ++ rows.tail) := by
  refine ⟨fun s hs helapsed => ?_, fun s hs helapsed => ?_, fun calls hcalls => ?_⟩
  · exact PollServer.log_reads_back fun row hrow =>
      rowFormat_fits rfl (PollServer.rows_plain hctime hs row hrow) (helapsed row hrow)
  · exact OneToOne.log_reads_back fun row hrow =>
      rowFormat_fits rfl (OneToOne.rows_plain hctime hs row hrow) (helapsed row hrow)
  · have hfits : ∀ call ∈ calls, Client.logFormat.Fits (Client.log h call.1 call.2) := by
      intro call hcall
      obtain ⟨hstart, hend, helapsed⟩ := hcalls call hcall
      exact Client.log_fits hctime call.1 hstart hend helapsed
    cases calls with
    | nil =>
      change (readTable (Client.logText [])).head? = _ ∧
        (∀ record ∈ readTable (Client.logText []), _) ∧
          Client.logFormat.readHeaded (Client.logText []) = _
      rw [Format.readHeaded, Client.logText_nil]
      exact ⟨rfl, by simp, rfl⟩
    | cons call calls =>
      have hrows : ∀ row ∈ calls.map fun call => Client.log h call.1 call.2,
          Client.logFormat.Fits row := by
        intro row hrow
        obtain ⟨other, hother, rfl⟩ := List.mem_map.mp hrow
        exact hfits other (List.mem_cons_of_mem _ hother)
      obtain ⟨hread, hwidth, hback⟩ :=
        Client.log_reads_back (hfits call List.mem_cons_self) hrows
      exact ⟨(congrArg List.head? hread).trans rfl, hwidth, hback⟩

theorem logs_read_back_one_row :
    let h : Host := ⟨.little, fun _ => true, fun _ => "Thu Jan  1 00:00:00 1970\n".toList⟩
    (∃ s, (PollServer.server h).Reaches (fun _ _ => True) (PollServer.initial 4 fun _ => false) s ∧
      s.rows.length = 1 ∧
        PollServer.logFormat.readHeaded (PollServer.logText s.rows) = some s.rows) ∧
    (∃ s, (OneToOne.server h).Reaches (fun _ _ => True) (OneToOne.initial 4) s ∧
      s.rows.length = 1 ∧
        OneToOne.logFormat.readRows (readTable (OneToOne.logText s.rows)) = some s.rows) ∧
    Client.logFormat.readHeaded (Client.logText [Client.log h 9 ⟨2, 7, 7, 8, 9, 1500⟩]) =
      some [(Client.log h 9 ⟨2, 7, 7, 8, 9, 1500⟩).withNul] := by
  intro h
  have hctime : h.PrintsTimes := fun _ => ⟨"Thu Jan  1 00:00:00 1970".toList, by decide, rfl⟩
  obtain ⟨hpoll, hone, hclient⟩ := @logs_read_back h 4 (fun _ => false) hctime
  refine ⟨?_, ?_, ?_⟩
  · have hrun : ((PollServer.server h).run PollServer.oneClient
        (PollServer.initial 4 fun _ => false)).map
          (fun s => s.rows.map fun row => row.elapsed.natAbs) = some [0] := by decide
    obtain ⟨s, hs, hval⟩ := Option.map_eq_some_iff.mp hrun
    obtain ⟨row, hrow, hzero⟩ := List.map_eq_singleton_iff.mp hval
    have hreach := Machine.reaches_of_run (fun _ _ => trivial) hs
    refine ⟨s, hreach, by rw [hrow]; rfl, (hpoll s hreach ?_).2.2⟩
    rw [hrow]
    simp [hzero]
  · have hrun : ((OneToOne.server h).run OneToOne.oneClient (OneToOne.initial 4)).map
          (fun s => s.rows.map fun row => row.elapsed.natAbs) = some [0] := by decide
    obtain ⟨s, hs, hval⟩ := Option.map_eq_some_iff.mp hrun
    obtain ⟨row, hrow, hzero⟩ := List.map_eq_singleton_iff.mp hval
    have hreach := Machine.reaches_of_run (fun _ _ => trivial) hs
    refine ⟨s, hreach, by rw [hrow]; rfl, hone s hreach ?_⟩
    rw [hrow]
    simp [hzero]
  · exact (hclient [(9, ⟨2, 7, 7, 8, 9, 1500⟩)] (by decide)).2.2

end ScalableServer
