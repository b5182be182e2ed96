import ScalableServer.Core.Objects
import ScalableServer.Core.Poll
import ScalableServer.Foundations.SlotTable

/-! What the poll server and the process server keep about their connections: an entry of the array
of `pollfd`s and an address for each, a `size_t` that counts them modulo `2 ^ 64`, and the listen
entry. A slot names its connection by the `key` of its descriptor. -/

namespace ScalableServer.Core

open ScalableServer.Foundations

def sizeMod : ℕ := 2 ^ 64

def Used (q : PollFd) : Prop := q.fd ≠ 0

instance (q : PollFd) : Decidable (Used q) := inferInstanceAs (Decidable (_ ≠ _))

def stopListening (M numConnections : ℕ) (listen : PollFd) : PollFd :=
  if numConnections ≥ M then { listen with events := .zero } else listen

def resumeListening (M numConnections : ℕ) (listen : PollFd) : PollFd :=
  if listen.events ≠ POLLIN ∧ numConnections < M then { listen with events := POLLIN } else listen

variable {M n : ℕ} {key : ℤ → ℤ} {listen listen' : PollFd} {client client' : Fin M → PollFd}
  {addrs : Fin M → SockAddr} {accepted : ℤ → Option SockAddr} {i : Fin M} {fd : ℤ} {addr : SockAddr}

structure Registered (key : ℤ → ℤ) (listen : PollFd) (client : Fin M → PollFd)
    (addrs : Fin M → SockAddr) (n : ℕ) (accepted : ℤ → Option SockAddr) : Prop where
  lists : SlotTable.Lists Used (fun q : PollFd => key q.fd) client addrs accepted
  free : ∀ i, (client i).fd = 0 → addrs i = {} ∧ (client i).events = .zero
  count : n = (SlotTable.occupied Used client).card
  listening : listen.events = if n < M then POLLIN else .zero

namespace Registered

lemma start (h : ∀ i, client i = {}) (hlisten : listen.events = if 0 < M then POLLIN else .zero) :
    Registered key listen client (fun _ => {}) 0 (fun _ => none) where
  lists := .empty fun i hi => hi (by rw [h i])
  free i _ := ⟨rfl, by rw [h i]⟩
  count := by
    symm
    rw [Finset.card_eq_zero, Finset.eq_empty_iff_forall_notMem]
    intro i hi
    rw [SlotTable.mem_occupied] at hi
    exact hi (by rw [h i])
  listening := hlisten

lemma count_le (h : Registered key listen client addrs n accepted) : n ≤ M :=
  h.count ▸ SlotTable.occupied_card_le _

lemma exists_free (h : Registered key listen client addrs n accepted) (hn : n < M) :
    ∃ i, ¬ Used (client i) :=
  SlotTable.occupied_card_lt_iff.mp (h.count ▸ hn)

lemma room (h : Registered key listen client addrs n accepted) (hl : listen.events ≠ .zero) :
    n < M := by
  by_contra hn
  exact hl (h.listening.trans (if_neg hn))

lemma listening_iff (h : Registered key listen client addrs n accepted) :
    listen.events = POLLIN ↔ n < M := by
  constructor
  · intro hl
    exact h.room (by rw [hl]; decide)
  · intro hn
    exact h.listening.trans (if_pos hn)

lemma congr (h : Registered key listen client addrs n accepted)
    (hlisten : listen'.events = listen.events)
    (hused : ∀ i, (client' i).fd = 0 ↔ (client i).fd = 0)
    (hkey : ∀ i, key (client' i).fd = key (client i).fd)
    (hevents : ∀ i, (client' i).events = (client i).events) :
    Registered key listen' client' addrs n accepted where
  lists := by
    have hu : ∀ i, Used (client' i) ↔ Used (client i) := fun i => not_congr (hused i)
    refine ⟨fun i hi => ?_, fun k hk => ?_, fun i j hi hj he => ?_⟩
    · rw [hkey]
      exact h.lists.stored i ((hu i).mp hi)
    · obtain ⟨i, hi, hik⟩ := h.lists.covers k hk
      exact ⟨i, (hu i).mpr hi, (hkey i).trans hik⟩
    · rw [hkey, hkey] at he
      exact h.lists.distinct i j ((hu i).mp hi) ((hu j).mp hj) he
  free i hi := by
    rw [hevents]
    exact h.free i ((hused i).mp hi)
  count := by
    rw [h.count]
    congr 1
    ext i
    rw [SlotTable.mem_occupied, SlotTable.mem_occupied]
    exact (not_congr (hused i)).symm
  listening := hlisten.trans h.listening

lemma accept (h : Registered key listen client addrs n accepted) (hM : M < sizeMod) (hn : n < M)
    (hi : (client i).fd = 0) (hfd : fd ≠ 0) (hnew : accepted (key fd) = none) :
    Registered key (stopListening M ((n + 1) % sizeMod) listen)
      (Function.update client i { client i with fd := fd, events := POLLIN })
      (Function.update addrs i addr) ((n + 1) % sizeMod)
      (Function.update accepted (key fd) (some addr)) := by
  have hunused : ¬ Used (client i) := not_not.mpr hi
  have hslot : Used { client i with fd := fd, events := POLLIN } := hfd
  have hcount : (n + 1) % sizeMod = n + 1 := Nat.mod_eq_of_lt (by omega)
  rw [hcount]
  refine ⟨h.lists.fill hunused hslot hnew, fun j hj => ?_, ?_, ?_⟩
  · by_cases hji : j = i
    · subst hji
      rw [Function.update_self] at hj
      exact (hfd hj).elim
    · rw [Function.update_of_ne hji] at hj ⊢
      rw [Function.update_of_ne hji]
      exact h.free j hj
  · rw [h.count]
    exact (SlotTable.occupied_fill hunused hslot).symm
  · rw [stopListening]
    by_cases hfull : n + 1 ≥ M
    · rw [if_pos hfull, if_neg (Nat.not_lt.mpr hfull)]
    · rw [if_neg hfull, if_pos (Nat.not_le.mp hfull), h.listening, if_pos hn]

lemma remove (h : Registered key listen client addrs n accepted) (hM : M < sizeMod)
    (hi : (client i).fd ≠ 0) :
    Registered key (resumeListening M ((n + (sizeMod - 1)) % sizeMod) listen)
      (Function.update client i {}) (Function.update addrs i {}) ((n + (sizeMod - 1)) % sizeMod)
      (Function.update accepted (key (client i).fd) none) := by
  have hunused : ¬ Used ({} : PollFd) := not_not.mpr rfl
  have hcard : (SlotTable.occupied Used (Function.update client i {})).card + 1 =
      (SlotTable.occupied Used client).card := SlotTable.occupied_clear hi hunused
  rw [← h.count] at hcard
  have hle := h.count_le
  have hcount : (n + (sizeMod - 1)) % sizeMod = n - 1 := by
    have hsum : n + (sizeMod - 1) = (n - 1) + sizeMod := by omega
    rw [hsum, Nat.add_mod_right, Nat.mod_eq_of_lt (by omega)]
  have hlt : n - 1 < M := by omega
  rw [hcount]
  refine ⟨h.lists.clear hi hunused, fun j hj => ?_, by omega, ?_⟩
  · by_cases hji : j = i
    · subst hji
      rw [Function.update_self, Function.update_self]
      exact ⟨rfl, rfl⟩
    · rw [Function.update_of_ne hji] at hj ⊢
      rw [Function.update_of_ne hji]
      exact h.free j hj
  · rw [resumeListening]
    rw [if_pos hlt]
    by_cases hl : listen.events ≠ POLLIN
    · rw [if_pos ⟨hl, hlt⟩]
    · rw [if_neg fun hboth => hl hboth.1]
      exact not_not.mp hl

end Registered

end ScalableServer.Core
