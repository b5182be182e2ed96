import ScalableServer.ProcessServer.Handoff
import ScalableServer.ProcessServer.Waiting

/-! `History` numbers the messages of each connection as they are read and lists, for each
connection, the numbers of the messages that have been replied to. -/

namespace ScalableServer.ProcessServer

open ScalableServer.Foundations ScalableServer.Core

variable {M N : ℕ}

namespace Child

def owes (c : Child) : Option ℕ :=
  match c.pc with
  | .waitPipe _ | .writePipe _ | .waitLog _ | .postLog _ | .reply _ => c.conn
  | _ => none

def serves (c : Child) : Option ℕ :=
  match c.pc with
  | .payload _ _ _ _ => c.conn
  | _ => c.owes

def reads (c c' : Child) : Option ℕ :=
  match c.pc, c'.pc with
  | .payload _ _ _ _, .waitPipe _ => c.conn
  | _, _ => none

def replies (c c' : Child) : Option ℕ :=
  match c.pc, c'.pc with
  | .reply _, .close => c.conn
  | _, _ => none

inductive Advances (c c' : Child) : Prop
  | same (hserves : c'.serves = c.serves) (howes : c'.owes = c.owes) (hreads : c.reads c' = none)
      (hreplies : c.replies c' = none)
  | begins {id : ℕ} (hpc : c.pc = .header) (hconn : c.conn = some id) (hserves : c'.serves = some id)
      (howes : c'.owes = none) (hreads : c.reads c' = none) (hreplies : c.replies c' = none)
  | reads {id : ℕ} (hpc : ∃ n k b buffer, c.pc = .payload n k b buffer)
      (hserves : c.serves = some id) (howes : c.owes = none) (hserves' : c'.serves = some id)
      (howes' : c'.owes = some id) (hreads : c.reads c' = some id) (hreplies : c.replies c' = none)
  | replies {id : ℕ} (howes : c.owes = some id) (hserves' : c'.serves = none)
      (howes' : c'.owes = none) (hreads : c.reads c' = none) (hreplies : c.replies c' = some id)

variable {h : Host} {pid : ℕ} {conns : ℕ → Conn} {c c' : Child} {e : ChildEvent} {a : Action}

lemma serves_of_owes {id : ℕ} (howes : c.owes = some id) : c.serves = some id := by
  rw [serves]
  split
  · rename_i hpc
    rw [owes, hpc] at howes
    cases howes
  · exact howes

lemma advances_of_idle (hserves : c.serves = none) (hserves' : c'.serves = none) : c.Advances c' := by
  have hnone : ∀ {d : Child}, d.serves = none → d.owes = none := by
    intro d hd
    cases howes : d.owes with
    | none => rfl
    | some id => rw [serves_of_owes howes] at hd; cases hd
  refine .same (hserves'.trans hserves.symm) ((hnone hserves').trans (hnone hserves).symm) ?_ ?_
  · rw [reads]
    split
    · rename_i hpc hpc'
      rwa [serves, hpc] at hserves
    · rfl
  · rw [replies]
    split
    · rename_i hpc hpc'
      rwa [serves, hpc, owes, hpc] at hserves
    · rfl

lemma advances_of_owed (hpc : c'.owes = c.owes) (hserves : c.serves = c.owes)
    (hserves' : c'.serves = c'.owes) (hreads : c.reads c' = none) (hreplies : c.replies c' = none) :
    c.Advances c' :=
  .same (by rw [hserves', hserves, hpc]) hpc hreads hreplies

lemma Moves.advances (hmoves : c.Moves h pid conns e c' a) (he : e ≠ .fail .EINTR)
    (hcalls : ¬ (c.clientCallFails h conns e = true ∨ c.otherCallFails e = true ∨
      ∃ n, h.alloc n = false)) : c.Advances c' := by
  cases hmoves with
  | recv hpc hpc' =>
    obtain ⟨n, k, b, buffer, rfl⟩ := hpc'
    cases hconn : c.conn with
    | none =>
      refine advances_of_idle ?_ hconn
      rcases hpc with hpc | ⟨_, _, _, _, hpc⟩
      · rw [serves, hpc, owes, hpc]
      · rw [serves, hpc]
        exact hconn
    | some id =>
      rcases hpc with hpc | ⟨_, _, _, _, hpc⟩
      · exact .begins hpc hconn hconn rfl (by rw [reads, hpc]) (by rw [replies, hpc])
      · refine .same ?_ ?_ ?_ ?_
        · rw [serves, serves, hpc]
          rfl
        · rw [owes, owes, hpc]
          rfl
        · rw [reads, hpc]
          rfl
        · rw [replies, hpc]
  | finish hpc =>
    cases hconn : c.conn with
    | none => exact advances_of_idle (by rw [serves, hpc]; exact hconn) hconn
    | some id =>
      exact .reads ⟨_, _, _, _, hpc⟩ (by rw [serves, hpc]; exact hconn) (by rw [owes, hpc]) hconn
        hconn (by rw [reads, hpc]; exact hconn) (by rw [replies, hpc])
  | reply hpc =>
    cases hconn : c.conn with
    | none => exact advances_of_idle (by rw [serves, hpc, owes, hpc]; exact hconn) rfl
    | some id =>
      exact .replies (by rw [owes, hpc]; exact hconn) rfl rfl (by rw [reads, hpc])
        (by rw [replies, hpc]; exact hconn)
  | waitPipe hpc | writePipe hpc | waitLog hpc | postLog hpc =>
    refine advances_of_owed ?_ ?_ rfl ?_ ?_
    · rw [owes, owes, hpc]
      rfl
    · rw [serves, hpc]
    · rw [reads, hpc]
    · rw [replies, hpc]
  | postWrite hpc =>
    apply advances_of_idle (by rw [serves, hpc, owes, hpc])
    split_ifs <;> rfl
  | peerName hpc =>
    apply advances_of_idle (by rw [serves, hpc, owes, hpc])
    split_ifs <;> rfl
  | start hpc | leave hpc | waitRead hpc | recvMsg hpc | close hpc =>
    exact advances_of_idle (by rw [serves, hpc, owes, hpc]) rfl
  | interrupt => exact (he rfl).elim
  | signal =>
    refine .same rfl rfl ?_ ?_
    · rw [reads]
      split
      · rename_i hpc hpc'
        rw [hpc] at hpc'
        cases hpc'
      · rfl
    · rw [replies]
      split
      · rename_i hpc hpc'
        rw [hpc] at hpc'
        cases hpc'
      · rfl
  | fail hc hfail => exact (hcalls hfail).elim

end Child

structure History (M N : ℕ) where
  system : System M N
  messages : ℕ → ℕ := 0
  ticket : Fin N → ℕ := 0
  replies : ℕ → List ℕ := fun _ => []

namespace History

def observe (r : History M N) (i : Fin N) (t : System M N) : History M N :=
  match (r.system.children i).reads (t.children i), (r.system.children i).replies (t.children i) with
  | some id, _ =>
    { system := t
      messages := Function.update r.messages id (r.messages id + 1)
      ticket := Function.update r.ticket i (r.messages id)
      replies := r.replies }
  | none, some id =>
    { r with system := t, replies := Function.update r.replies id (r.replies id ++ [r.ticket i]) }
  | none, none => { r with system := t }

def step [NeZero M] (h : Host) (r : History M N) (e : Event M N) : Option (History M N) :=
  (r.system.step h e).map fun t =>
    match e with
    | .child i _ => r.observe i t
    | _ => { r with system := t }

def machine [NeZero M] (h : Host) : Machine (History M N) (Event M N) := ⟨step h⟩

def InOrder (r : History M N) : Prop := ∀ id, r.replies id = List.range (r.replies id).length

def Overtakes (s : System M N) : Event M N → Prop
  | .child i (.run _ _) => (s.children i).pc = .header ∧
      ∃ j, (s.children j).owes ≠ none ∧ (s.children j).owes = (s.children i).conn
  | _ => False

instance (s : System M N) : (e : Event M N) → Decidable (Overtakes s e)
  | .child _ (.run _ _) => inferInstanceAs (Decidable (_ ∧ _))
  | .child _ .ok | .child _ (.received _ _ _) | .child _ (.fail _) | .child _ .signal
  | .parent _ | .deliver _ _ | .hangup _ => .isFalse not_false

structure Tallied (r : History M N) : Prop where
  alone : ∀ i j id, (r.system.children i).serves = some id →
    (r.system.children j).serves = some id → i = j
  inOrder : r.InOrder
  owed : ∀ i id, (r.system.children i).owes = some id →
    r.ticket i = (r.replies id).length ∧ r.messages id = (r.replies id).length + 1
  settled : ∀ id, (∀ i, (r.system.children i).owes ≠ some id) →
    r.messages id = (r.replies id).length

variable {h : Host} {r : History M N} {i : Fin N} {t : System M N}

lemma Tallied.frame (hr : r.Tallied)
    (hserves : ∀ j, (t.children j).serves = (r.system.children j).serves)
    (howes : ∀ j, (t.children j).owes = (r.system.children j).owes) :
    ({ r with system := t } : History M N).Tallied where
  alone i j id hi hj := hr.alone i j id (hserves i ▸ hi) (hserves j ▸ hj)
  inOrder := hr.inOrder
  owed i id hi := hr.owed i id (howes i ▸ hi)
  settled id hid := hr.settled id fun i hi => hid i ((howes i).trans hi)

lemma Tallied.begins {id : ℕ} (hr : r.Tallied)
    (hothers : ∀ j, j ≠ i → t.children j = r.system.children j)
    (hserves : (t.children i).serves = some id) (howes : (t.children i).owes = none)
    (howes' : (r.system.children i).owes = none)
    (hfree : ∀ j, (r.system.children j).serves ≠ some id) :
    ({ r with system := t } : History M N).Tallied := by
  have hsame : ∀ j, (t.children j).owes = (r.system.children j).owes := by
    intro j
    by_cases hj : j = i
    · rw [hj, howes, howes']
    · rw [hothers j hj]
  refine ⟨fun j k id' hj hk => ?_, hr.inOrder, fun j id' hj => hr.owed j id' (hsame j ▸ hj),
    fun id' hid => hr.settled id' fun j hj => hid j ((hsame j).trans hj)⟩
  by_cases hji : j = i <;> by_cases hki : k = i
  · rw [hji, hki]
  · change (t.children j).serves = some id' at hj
    change (t.children k).serves = some id' at hk
    rw [hji, hserves] at hj
    rw [hothers k hki] at hk
    exact (hfree k (hk.trans hj.symm)).elim
  · change (t.children j).serves = some id' at hj
    change (t.children k).serves = some id' at hk
    rw [hki, hserves] at hk
    rw [hothers j hji] at hj
    exact (hfree j (hj.trans hk.symm)).elim
  · change (t.children j).serves = some id' at hj
    change (t.children k).serves = some id' at hk
    rw [hothers j hji] at hj
    rw [hothers k hki] at hk
    exact hr.alone j k id' hj hk

lemma Tallied.reads {id : ℕ} (hr : r.Tallied)
    (hothers : ∀ j, j ≠ i → t.children j = r.system.children j)
    (hserves : (r.system.children i).serves = some id) (howes : (r.system.children i).owes = none)
    (hserves' : (t.children i).serves = some id) (howes' : (t.children i).owes = some id) :
    ({ system := t
       messages := Function.update r.messages id (r.messages id + 1)
       ticket := Function.update r.ticket i (r.messages id)
       replies := r.replies } : History M N).Tallied := by
  -- Child `i` alone serves the connection, so that no other reply on it is due.
  have hsame : ∀ j, (t.children j).serves = (r.system.children j).serves := by
    intro j
    by_cases hj : j = i
    · rw [hj, hserves, hserves']
    · rw [hothers j hj]
  have hnone : ∀ j, (r.system.children j).owes ≠ some id := by
    intro j hj
    obtain rfl := hr.alone j i id (Child.serves_of_owes hj) hserves
    rw [howes] at hj
    cases hj
  have hsettled := hr.settled id hnone
  refine ⟨fun j k id' hj hk => hr.alone j k id' (hsame j ▸ hj) (hsame k ▸ hk), hr.inOrder,
    fun j id' hj => ?_, fun id' hid => ?_⟩
  · by_cases hji : j = i
    · subst hji
      obtain rfl := Option.some.inj (howes'.symm.trans hj)
      simp only [Function.update_self, hsettled, and_self]
    · have hj' : (r.system.children j).owes = some id' := hothers j hji ▸ hj
      have hid : id' ≠ id := by
        rintro rfl
        exact hnone j hj'
      simp only [Function.update_of_ne hji, Function.update_of_ne hid]
      exact hr.owed j id' hj'
  · have hne : id' ≠ id := by
      rintro rfl
      exact hid i howes'
    simp only [Function.update_of_ne hne]
    refine hr.settled id' fun j hj => ?_
    by_cases hji : j = i
    · rw [hji, howes] at hj
      cases hj
    · exact hid j ((congrArg Child.owes (hothers j hji)).trans hj)

lemma Tallied.replies {id : ℕ} (hr : r.Tallied)
    (hothers : ∀ j, j ≠ i → t.children j = r.system.children j)
    (howes : (r.system.children i).owes = some id) (hserves' : (t.children i).serves = none)
    (howes' : (t.children i).owes = none) :
    ({ r with
       system := t
       replies := Function.update r.replies id (r.replies id ++ [r.ticket i]) } :
      History M N).Tallied := by
  obtain ⟨hticket, hmessages⟩ := hr.owed i id howes
  have hother : ∀ j, j ≠ i → ∀ id', (t.children j).serves = some id' → id' ≠ id := by
    rintro j hji id' hj rfl
    exact hji (hr.alone j i id' (hothers j hji ▸ hj) (Child.serves_of_owes howes))
  refine ⟨fun j k id' hj hk => ?_, fun id' => ?_, fun j id' hj => ?_, fun id' hid => ?_⟩
  · have hne : ∀ l, (t.children l).serves = some id' → l ≠ i := by
      rintro l hl rfl
      rw [hserves'] at hl
      cases hl
    exact hr.alone j k id' (hothers j (hne j hj) ▸ hj) (hothers k (hne k hk) ▸ hk)
  · by_cases hne : id' = id
    · subst hne
      simp only [Function.update_self, List.length_append, List.length_singleton,
        List.range_succ, ← hr.inOrder id', hticket]
    · simp only [Function.update_of_ne hne]
      exact hr.inOrder id'
  · have hji : j ≠ i := by
      rintro rfl
      change (t.children j).owes = some id' at hj
      rw [howes'] at hj
      cases hj
    simp only [Function.update_of_ne (hother j hji id' (Child.serves_of_owes hj))]
    exact hr.owed j id' (hothers j hji ▸ hj)
  · by_cases hne : id' = id
    · subst hne
      simp only [Function.update_self, List.length_append, List.length_singleton]
      exact hmessages
    · simp only [Function.update_of_ne hne]
      refine hr.settled id' fun j hj => ?_
      by_cases hji : j = i
      · rw [hji, howes] at hj
        exact hne (Option.some.inj hj).symm
      · exact hid j ((congrArg Child.owes (hothers j hji)).trans hj)

lemma Tallied.observe (hr : r.Tallied)
    (hothers : ∀ j, j ≠ i → t.children j = r.system.children j)
    (hadvances : (r.system.children i).Advances (t.children i))
    (hfree : ∀ id, (r.system.children i).pc = .header → (r.system.children i).conn = some id →
      (t.children i).serves = some id → ∀ j, (r.system.children j).serves ≠ some id) :
    (r.observe i t).Tallied := by
  rw [History.observe]
  cases hadvances with
  | same hserves howes hreads hreplies =>
    rw [hreads, hreplies]
    refine hr.frame (fun j => ?_) (fun j => ?_)
    · by_cases hj : j = i
      · rw [hj, hserves]
      · rw [hothers j hj]
    · by_cases hj : j = i
      · rw [hj, howes]
      · rw [hothers j hj]
  | begins hpc hconn hserves howes hreads hreplies =>
    rw [hreads, hreplies]
    exact hr.begins hothers hserves howes (by rw [Child.owes, hpc])
      (hfree _ hpc hconn hserves)
  | reads hpc hserves howes hserves' howes' hreads hreplies =>
    rw [hreads]
    exact hr.reads hothers hserves howes hserves' howes'
  | replies howes hserves' howes' hreads hreplies =>
    rw [hreads, hreplies]
    exact hr.replies hothers howes hserves' howes'

lemma initial_tallied (listenFd pipeFd : ℤ) (others childOthers : ℤ → Bool) (conns : ℕ → Conn) :
    ({ system := .initial listenFd pipeFd others childOthers conns } : History M N).Tallied where
  alone i j id hi := by cases hi
  inOrder id := rfl
  owed i id hi := by cases hi
  settled id _ := rfl

lemma free_of_header {e : ChildEvent} {c : Child} {a : Action} {id : ℕ} (hs : r.system.Consistent)
    (hahead : ¬ Overtakes r.system (.child i e))
    (hstep : (r.system.children i).step h i r.system.conns e = some (c, a))
    (hpc : (r.system.children i).pc = .header) (hconn : (r.system.children i).conn = some id)
    (hbegins : c.serves = some id) (j : Fin N) : (r.system.children j).serves ≠ some id := by
  -- Only the return of the header's `recv` begins a message.
  intro hserves
  cases e with
  | run prior ti =>
    rw [Child.serves] at hserves
    split at hserves
    · rename_i n k b buffer hpc'
      have hij := hs.reader (i := i) (j := j) ⟨hconn, .inl hpc⟩
        ⟨hserves, .inr ⟨n, k, b, buffer, hpc'⟩⟩
      rw [← hij, hpc] at hpc'
      cases hpc'
    · exact hahead ⟨hpc, j, by rw [hserves]; simp, hserves.trans hconn.symm⟩
  | signal =>
    obtain ⟨rfl, -⟩ := Prod.mk.inj (Option.some.inj hstep)
    rw [Child.serves] at hbegins
    simp [Child.owes, hpc] at hbegins
  | ok | received | fail => simp [Child.step, hpc] at hstep

variable [NeZero M]

lemma system_of_step {e : Event M N} {r' : History M N} (hstep : r.step h e = some r') :
    r.system.step h e = some r'.system := by
  obtain ⟨t, ht, rfl⟩ := Option.map_eq_some_iff.mp hstep
  rw [ht]
  cases e with
  | child i e =>
    change some t = some (r.observe i t).system
    rw [History.observe]
    split <;> rfl
  | _ => rfl

lemma Tallied.step {e : Event M N} {r' : History M N} (hr : r.Tallied) (hs : r.system.Consistent)
    (halloc : ∀ n, h.alloc n = true) (hok : ¬ r.system.CallFails h e)
    (hahead : ¬ Overtakes r.system e) (hstep : r.step h e = some r') : r'.Tallied := by
  obtain ⟨t, ht, rfl⟩ := Option.map_eq_some_iff.mp hstep
  cases e with
  | parent e =>
    obtain ⟨u, s', -, hcall, rfl⟩ := System.parent_of_step ht
    have hchildren := (System.called hcall).children
    exact hr.frame (fun j => congrArg Child.serves (congrFun hchildren j))
      (fun j => congrArg Child.owes (congrFun hchildren j))
  | child i e =>
    obtain ⟨c, a, s', hc, hact, rfl⟩ := System.acted_of_step ht
    have hself : (s'.setChild i c).children i = c := Function.update_self _ _ _
    refine hr.observe (fun j hj => ?_) ?_ ?_
    · change Function.update s'.children i c j = _
      rw [Function.update_of_ne hj, (System.act_frame hact).2.1]
    · rw [hself]
      refine (Child.moves_of_step hc).advances ?_ ?_
      · rintro rfl
        by_cases hpc : (r.system.children i).pc = .peerName
        · exact hok (.inl (decide_eq_true hpc))
        · exact hok (.inr (decide_eq_true hpc))
      · rintro (hfail | hfail | ⟨n, hn⟩)
        · exact hok (.inl hfail)
        · exact hok (.inr hfail)
        · rw [halloc] at hn
          cases hn
    · rw [hself]
      exact fun id hpc hconn hbegins => free_of_header hs hahead hc hpc hconn hbegins
  | deliver id bytes | hangup id =>
    obtain rfl := Option.some.inj ht
    exact hr.frame (fun _ => rfl) fun _ => rfl

def overtakingEvents : List (Event maxConnections numChildProcesses) :=
  let dispatch := System.pollEvents (fun p => if p = 0 then POLLIN else .zero) ++
    System.passEvents 1 ++ System.handEvents ++ System.passEvents 5
  let take (i : Fin numChildProcesses) : List (Event maxConnections numChildProcesses) :=
    [.child i (.run 0 {}), .child i .ok, .child i (.received ⟨6, .accepted {} 0⟩ 4), .child i .ok,
      .child i .ok, .child i (.run 0 {}), .child i (.run 0 {}), .child i (.run 0 {}), .child i .ok,
      .child i .ok]
  let finish (i : Fin numChildProcesses) : List (Event maxConnections numChildProcesses) :=
    [.child i .ok, .child i (.run 0 {}), .child i (.run 0 {})]
  System.acceptEvents 6 0 (fun _ => .zero) ++
    [.deliver 0 [0, 0, 0, 1, 7, 0, 0, 0, 2, 8, 9]] ++ dispatch ++ take 0 ++
    [.parent .run, .parent (.poll (.ok ⟨.zero, POLLIN, fun _ => .zero⟩)), .parent (.read (.ok 6))] ++
    dispatch ++ take 1 ++ finish 1 ++ finish 0

theorem not_inOrder_of_overtaking :
    ¬ ∀ (h : Host) (conns : ℕ → Conn) (r : History maxConnections numChildProcesses),
      (∀ n, h.alloc n = true) →
      (machine h).Reaches (fun r e => ¬ r.system.CallFails h e ∧ r.system.OrderlyEvent e)
        { system := .initial 5 4 System.parentDescriptors System.childDescriptors conns } r →
      r.InOrder := by
  intro hall
  let sizes : Stream' ℕ := fun n => if n = 1 then 1 else if n = 3 then 2 else 4
  let conn : Conn :=
    { recvs := sizes.map Answer.moves, sends := Stream'.const (.moves 4)
      selects := Stream'.const (.moves 0) }
  let h : Host := ⟨.little, fun _ => true, fun _ => []⟩
  have hrun : ((machine h).runWithin
      (fun r e => ¬ r.system.CallFails h e ∧ r.system.OrderlyEvent e) overtakingEvents
      { system := .initial 5 4 System.parentDescriptors System.childDescriptors fun _ => conn }).map
        (fun r => (r.replies 0, (r.system.conns 0).sent)) =
          some ([1, 0], [0, 0, 0, 2, 0, 0, 0, 1]) := by decide +kernel
  obtain ⟨r, hr, hval⟩ := Option.map_eq_some_iff.mp hrun
  have hreplies := (Prod.mk.inj hval).1
  have horder := hall h _ r (fun _ => rfl) (Machine.reaches_of_runWithin hr) 0
  rw [hreplies] at horder
  exact absurd horder (by decide)

theorem processServer_replies_in_order (h : Host) (halloc : ∀ n, h.alloc n = true)
    (hM : M < sizeMod) (listenFd pipeFd : ℤ) (others childOthers : ℤ → Bool) (conns : ℕ → Conn)
    (r : History M N)
    (hr : (machine h).Reaches
      (fun r e => ¬ r.system.CallFails h e ∧ r.system.OrderlyEvent e ∧ ¬ Overtakes r.system e)
      { system := .initial listenFd pipeFd others childOthers conns } r) : r.InOrder := by
  have hinv : r.system.Consistent ∧ r.Tallied := by
    refine hr.invariant (I := fun r => r.system.Consistent ∧ r.Tallied)
      ⟨System.initial_consistent _ _ _ _ _, initial_tallied _ _ _ _ _⟩ ?_
    rintro a e b ⟨hs, ha⟩ ⟨hok, horderly, hahead⟩ hstep
    exact ⟨hs.step hM halloc hok horderly (system_of_step hstep),
      ha.step hs halloc hok hahead hstep⟩
  exact hinv.2.inOrder

theorem processServer_replies_in_order_run :
    let h : Host := ⟨.little, fun _ => true, fun _ => []⟩
    let sizes : Stream' ℕ := fun n => if n = 1 then 1 else 4
    let conn : Conn :=
      { recvs := sizes.map Answer.moves, sends := Stream'.const (.moves 4)
        selects := Stream'.const (.moves 0) }
    let es : List (Event maxConnections numChildProcesses) :=
      System.acceptEvents 6 0 (fun _ => .zero) ++ [.deliver 0 [0, 0, 0, 1, 7]] ++
        System.pollEvents (fun p => if p = 0 then POLLIN else .zero) ++ System.passEvents 1 ++
        System.handEvents ++
        [.child 1 (.run 0 {}), .child 1 .ok, .child 1 (.received ⟨6, .accepted {} 0⟩ 4),
          .child 1 .ok, .child 1 .ok, .child 1 (.run 0 {}), .child 1 (.run 0 {}),
          .child 1 (.run 0 {}), .child 1 .ok, .child 1 .ok, .child 1 .ok, .child 1 (.run 0 {}),
          .child 1 (.run 0 {})]
    ∃ r, (machine h).runWithin
        (fun r e => ¬ r.system.CallFails h e ∧ r.system.OrderlyEvent e ∧ ¬ Overtakes r.system e) es
        { system := .initial 5 4 System.parentDescriptors System.childDescriptors fun _ => conn } =
          some r ∧
      (r.replies 0).length = 1 ∧ r.replies 0 = [0] := by
  intro h sizes conn es
  have hrun : ((machine h).runWithin
      (fun r e => ¬ r.system.CallFails h e ∧ r.system.OrderlyEvent e ∧ ¬ Overtakes r.system e) es
      { system := .initial 5 4 System.parentDescriptors System.childDescriptors fun _ => conn }).map
        (fun r => (r.replies 0).length) = some 1 := by decide +kernel
  obtain ⟨r, hr, hlength⟩ := Option.map_eq_some_iff.mp hrun
  have horder := processServer_replies_in_order h (fun _ => rfl) (by decide) 5 4
    System.parentDescriptors System.childDescriptors (fun _ => conn) r
    (Machine.reaches_of_runWithin hr) 0
  rw [hlength] at horder
  exact ⟨r, hr, hlength, horder⟩

end History

end ScalableServer.ProcessServer
