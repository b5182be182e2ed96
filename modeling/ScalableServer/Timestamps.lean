import ScalableServer.Client.Handle
import ScalableServer.OneToOne.ReceiveMessage
import ScalableServer.PollServer.PollRecvAndLog
import ScalableServer.ProcessServer.ChildReceive

/-! The timestamps of a log row. Each call of `ctime` overwrites one static buffer and returns a
pointer to it, and the newline is removed in place. The four log functions are given by these
operations in their order, and the columns of their rows are what `fprintf` reads in the end. -/

namespace ScalableServer

open ScalableServer.Core

/-- What a `char *` points to: the buffer of `ctime`, or a text of its own. -/
inductive TimeStr
  | static
  | text (str : List Char)

abbrev TimeM := StateM (List Char)

def ctime (h : Host) (time : ℤ) : TimeM TimeStr := do
  set (h.ctime time)
  return .static

/-- `*(str + strlen(str) - 1) = '\0';`, where a literal is taken to be writable. -/
def removeNewline (str : TimeStr) : TimeM TimeStr := do
  match str with
  | .static =>
    modify trimLast
    return .static
  | .text str => return .text (trimLast str)

def TimeStr.read (static : List Char) : TimeStr → List Char
  | .static => static
  | .text str => str

def null : TimeStr := .text ['N', 'U', 'L', 'L']

def PollServer.timeStrs (h : Host) (t : Timing) : TimeM (TimeStr × TimeStr) := do
  let startTimeStr ←
    if t.startTime ≠ 0 then do removeNewline (← ctime h t.startTime) else pure null
  let endTimeStr ←
    if t.endTime ≠ 0 then do removeNewline (← ctime h t.endTime) else pure null
  return (startTimeStr, endTimeStr)

def ProcessServer.timeStrs (h : Host) (t : Timing) : TimeM (TimeStr × TimeStr) := do
  let startTimeStr ← removeNewline (← ctime h t.startTime)
  let endTimeStr ← removeNewline (← ctime h t.endTime)
  return (startTimeStr, endTimeStr)

def OneToOne.timeStrs (h : Host) (t : Timing) : TimeM (TimeStr × TimeStr) := do
  let startTimeStr ← ctime h t.startTime
  let endTimeStr ← ctime h t.endTime
  let startTimeStr ← removeNewline startTimeStr
  let endTimeStr ← removeNewline endTimeStr
  return (startTimeStr, endTimeStr)

def Client.timeStrs (h : Host) (timeStamp : ℤ) (l : Logger) :
    TimeM (TimeStr × TimeStr × TimeStr) := do
  let timeStampStr ← removeNewline (← ctime h timeStamp)
  let startTimeStr ← removeNewline (← if l.startTime = 0 then pure null else ctime h l.startTime)
  let endTimeStr ← removeNewline (← if l.endTime = 0 then pure null else ctime h l.endTime)
  return (timeStampStr, startTimeStr, endTimeStr)

def readTimes (m : TimeM (TimeStr × TimeStr)) (prior : List Char) : List Char × List Char :=
  let ((start, stop), static) := m.run prior
  (start.read static, stop.read static)

variable {h : Host} {t : Timing} {prior : List Char}

lemma PollServer.log_times (so : StateObject) (i : Fin maxConnections) (bytes : ℕ) :
    ((log h so i bytes t).startTime, (log h so i bytes t).endTime) =
      readTimes (timeStrs h t) prior := by
  by_cases hs : t.startTime = 0 <;> by_cases he : t.endTime = 0 <;>
    simp [log, timeColumns, readTimes, timeStrs, ctime, removeNewline, null, hs, he] <;> rfl

lemma ProcessServer.log_times (pid : ℕ) (child : ChildStruct) (bytes : ℕ) :
    ((cLogRow h pid child bytes t).startTime, (cLogRow h pid child bytes t).endTime) =
      readTimes (timeStrs h t) prior := rfl

lemma OneToOne.log_times (so : StateObject) (bytes : ℕ) :
    ((log h so bytes t).startTime, (log h so bytes t).endTime) =
      readTimes (timeStrs h t) prior := rfl

def Client.readTimes (m : TimeM (TimeStr × TimeStr × TimeStr)) (prior : List Char) :
    List Char × List Char × List Char :=
  let ((stamp, start, stop), static) := m.run prior
  (stamp.read static, start.read static, stop.read static)

lemma Client.log_times (timeStamp : ℤ) (l : Logger) :
    ((log h timeStamp l).timeStamp, (log h timeStamp l).startTime, (log h timeStamp l).endTime) =
      readTimes (timeStrs h timeStamp l) prior := by
  by_cases hs : l.startTime = 0 <;> by_cases he : l.endTime = 0 <;>
    simp [log, readTimes, timeStrs, ctime, removeNewline, null, hs, he] <;> rfl

def CTimeLines (h : Host) : Prop :=
  ∀ time, ∃ text : List Char, text.length = 24 ∧ h.ctime time = text ++ ['\n']

def timeText (h : Host) (time : ℤ) : List Char := trimLast (h.ctime time)

lemma timeText_length (hc : CTimeLines h) (time : ℤ) : (timeText h time).length = 24 := by
  obtain ⟨text, hlen, htext⟩ := hc time
  rw [timeText, htext, trimLast, List.dropLast_concat, hlen]

lemma ctime_eq (hc : CTimeLines h) (time : ℤ) : h.ctime time = timeText h time ++ ['\n'] := by
  obtain ⟨text, -, htext⟩ := hc time
  rw [timeText, htext, trimLast, List.dropLast_concat]

lemma timeText_inj (hc : CTimeLines h) (time time' : ℤ) :
    timeText h time = timeText h time' ↔ h.ctime time = h.ctime time' := by
  rw [ctime_eq hc, ctime_eq hc, List.append_cancel_right_eq]

lemma ne_timeText (hc : CTimeLines h) {str : List Char} (hlen : str.length ≠ 24) (time : ℤ) :
    str ≠ timeText h time := by
  rintro rfl
  exact hlen (timeText_length hc time)

def Shows (h : Host) (t : Timing) (startTime endTime : List Char) : Prop :=
  startTime = timeText h t.startTime ∧ endTime = timeText h t.endTime

lemma PollServer.readTimes_shows (hc : CTimeLines h) (prior : List Char) :
    Shows h t (readTimes (timeStrs h t) prior).1 (readTimes (timeStrs h t) prior).2 ↔
      t.startTime ≠ 0 ∧ t.endTime ≠ 0 ∧ h.ctime t.startTime = h.ctime t.endTime := by
  have hnull : ∀ time, ['N', 'U', 'L', 'L'] ≠ timeText h time := ne_timeText hc (by decide)
  by_cases hs : t.startTime = 0
  · have hcol : (readTimes (timeStrs h t) prior).1 = ['N', 'U', 'L', 'L'] := by
      by_cases he : t.endTime = 0 <;>
        simp [readTimes, timeStrs, ctime, removeNewline, null, hs, he] <;> rfl
    rw [Shows, hcol]
    exact iff_of_false (fun hboth => hnull _ hboth.1) fun hboth => hboth.1 hs
  · by_cases he : t.endTime = 0
    · have hcol : (readTimes (timeStrs h t) prior).2 = ['N', 'U', 'L', 'L'] := by
        simp [readTimes, timeStrs, ctime, removeNewline, null, hs, he]
        rfl
      rw [Shows, hcol]
      exact iff_of_false (fun hboth => hnull _ hboth.2) fun hboth => hboth.2.1 he
    · -- both pointers are to the static buffer, which holds the end time
      have hcols : readTimes (timeStrs h t) prior = (timeText h t.endTime, timeText h t.endTime) := by
        simp [readTimes, timeStrs, ctime, removeNewline, hs, he]
        rfl
      rw [Shows, hcols, and_iff_left rfl, timeText_inj hc, eq_comm, and_iff_right hs,
        and_iff_right he]

lemma PollServer.shows_iff (hc : CTimeLines h) (so : StateObject) (i : Fin maxConnections)
    (bytes : ℕ) : Shows h t (log h so i bytes t).startTime (log h so i bytes t).endTime ↔
      t.startTime ≠ 0 ∧ t.endTime ≠ 0 ∧ h.ctime t.startTime = h.ctime t.endTime := by
  have hshows := @readTimes_shows h t hc []
  rw [← log_times so i bytes] at hshows
  exact hshows

lemma ProcessServer.shows_iff (hc : CTimeLines h) (pid : ℕ) (child : ChildStruct) (bytes : ℕ) :
    Shows h t (cLogRow h pid child bytes t).startTime (cLogRow h pid child bytes t).endTime ↔
      h.ctime t.startTime = h.ctime t.endTime := by
  have hcols : readTimes (timeStrs h t) [] = (timeText h t.endTime, timeText h t.endTime) := rfl
  obtain ⟨hstart, hend⟩ := Prod.mk.inj ((@log_times h t [] pid child bytes).trans hcols)
  rw [Shows, hstart, hend, and_iff_left rfl, timeText_inj hc, eq_comm]

lemma OneToOne.not_shows (hc : CTimeLines h) (so : StateObject) (bytes : ℕ) :
    ¬ Shows h t (log h so bytes t).startTime (log h so bytes t).endTime := by
  have hend : (log h so bytes t).endTime = trimLast (timeText h t.endTime) :=
    congrArg Prod.snd (@log_times h t [] so bytes)
  have hlen : (trimLast (timeText h t.endTime)).length ≠ 24 := by
    rw [trimLast, List.length_dropLast, timeText_length hc]
    decide
  rintro ⟨-, htext⟩
  exact ne_timeText hc hlen t.endTime (hend.symm.trans htext)

lemma Client.shows_iff (hc : CTimeLines h) (timeStamp : ℤ) (l : Logger) :
    (log h timeStamp l).timeStamp = timeText h timeStamp ∧
      (log h timeStamp l).startTime = timeText h l.startTime ∧
        (log h timeStamp l).endTime = timeText h l.endTime ↔
      l.startTime ≠ 0 ∧ l.endTime ≠ 0 ∧ h.ctime timeStamp = h.ctime l.endTime ∧
        h.ctime l.startTime = h.ctime l.endTime := by
  have hnull : ∀ time, trimLast ['N', 'U', 'L', 'L'] ≠ timeText h time := ne_timeText hc (by decide)
  have htimes := @log_times h [] timeStamp l
  by_cases hs : l.startTime = 0
  · have hcol : (readTimes (timeStrs h timeStamp l) []).2.1 = trimLast ['N', 'U', 'L', 'L'] := by
      by_cases he : l.endTime = 0 <;>
        simp [readTimes, timeStrs, ctime, removeNewline, null, hs, he] <;> rfl
    simp only [← htimes] at hcol
    rw [hcol]
    exact iff_of_false (fun hall => hnull _ hall.2.1) fun hall => hall.1 hs
  · by_cases he : l.endTime = 0
    · have hcol : (readTimes (timeStrs h timeStamp l) []).2.2 = trimLast ['N', 'U', 'L', 'L'] := by
        simp [readTimes, timeStrs, ctime, removeNewline, null, hs, he]
        rfl
      simp only [← htimes] at hcol
      rw [hcol]
      exact iff_of_false (fun hall => hnull _ hall.2.2) fun hall => hall.2.1 he
    · have hcols : readTimes (timeStrs h timeStamp l) [] =
          (timeText h l.endTime, timeText h l.endTime, timeText h l.endTime) := by
        simp [readTimes, timeStrs, ctime, removeNewline, hs, he]
        rfl
      rw [← htimes, Prod.mk.injEq, Prod.mk.injEq] at hcols
      obtain ⟨hstamp, hstart, hend⟩ := hcols
      rw [hstamp, hstart, hend, and_iff_left rfl, timeText_inj hc, timeText_inj hc,
        and_iff_right hs, and_iff_right he, eq_comm, @eq_comm _ (h.ctime l.endTime)]

theorem timestamps_iff (h : Host) (hc : CTimeLines h) (t : Timing) (timeStamp : ℤ)
    (poll : PollServer.StateObject) (i : Fin PollServer.maxConnections) (pid : ℕ)
    (child : ProcessServer.ChildStruct) (oneToOne : OneToOne.StateObject) (bytes : ℕ)
    (l : Client.Logger) :
    (Shows h t (PollServer.log h poll i bytes t).startTime
        (PollServer.log h poll i bytes t).endTime ↔
      t.startTime ≠ 0 ∧ t.endTime ≠ 0 ∧ h.ctime t.startTime = h.ctime t.endTime) ∧
    (Shows h t (ProcessServer.cLogRow h pid child bytes t).startTime
        (ProcessServer.cLogRow h pid child bytes t).endTime ↔
      h.ctime t.startTime = h.ctime t.endTime) ∧
    ¬ Shows h t (OneToOne.log h oneToOne bytes t).startTime
        (OneToOne.log h oneToOne bytes t).endTime ∧
    ((Client.log h timeStamp l).timeStamp = timeText h timeStamp ∧
        (Client.log h timeStamp l).startTime = timeText h l.startTime ∧
        (Client.log h timeStamp l).endTime = timeText h l.endTime ↔
      l.startTime ≠ 0 ∧ l.endTime ≠ 0 ∧ h.ctime timeStamp = h.ctime l.endTime ∧
        h.ctime l.startTime = h.ctime l.endTime) :=
  ⟨PollServer.shows_iff hc poll i bytes, ProcessServer.shows_iff hc pid child bytes,
    OneToOne.not_shows hc oneToOne bytes, Client.shows_iff hc timeStamp l⟩

/-- `ctime` of a clock that goes from `a` to `b` after the first second. -/
def twoTexts : Host where
  endian := .little
  alloc _ := true
  ctime time := List.replicate 24 (if time ≤ 1 then 'a' else 'b') ++ ['\n']

lemma twoTexts_lines : CTimeLines twoTexts :=
  fun time => ⟨List.replicate 24 (if time ≤ 1 then 'a' else 'b'), List.length_replicate, rfl⟩

def pollState : PollServer.StateObject where
  listenFd := 3
  clientFd _ := 4
  clientAddr _ := { sinAddr := 1, sinPort := 5000 }
  numConnections := 1

theorem not_timestamps :
    ¬ ∀ (h : Host) (t : Timing) (poll : PollServer.StateObject) (i : Fin PollServer.maxConnections)
        (bytes : ℕ), CTimeLines h → Shows h t (PollServer.log h poll i bytes t).startTime
          (PollServer.log h poll i bytes t).endTime := by
  intro hall
  have hshows := (hall twoTexts { startTime := 1, endTime := 2 } pollState 0 7 twoTexts_lines).1
  exact absurd hshows (by decide)

theorem timestamps_within_a_second :
    let t : Timing := { startTime := 2, endTime := 2 }
    Shows twoTexts t (PollServer.log twoTexts pollState 0 7 t).startTime
        (PollServer.log twoTexts pollState 0 7 t).endTime ∧
      Shows twoTexts t (ProcessServer.cLogRow twoTexts 9 {} 7 t).startTime
        (ProcessServer.cLogRow twoTexts 9 {} 7 t).endTime := by
  intro t
  obtain ⟨hpoll, hprocess, -⟩ := timestamps_iff twoTexts twoTexts_lines t 2 pollState 0 9 {} ⟨3, 4, {}⟩
    7 ⟨0, 7, 7, 2, 2, 0⟩
  exact ⟨hpoll.mpr ⟨by decide, by decide, rfl⟩, hprocess.mpr rfl⟩

end ScalableServer
