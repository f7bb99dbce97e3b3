import Mathlib
import PairedTuning.Lock.Table

/-!
# The order of first polls

What the events alone say about who waits for which run, without any lock: which acquisitions have
been created and not been dropped, and which of those have been polled, in the order of their first
polls. The acquisitions of one run among the latter are its queue.
-/

namespace PairedTuning

/-- Where no key occurs twice, whatever is in a list is found by its key. -/
lemma find?_key_eq_some {α κ : Type} [BEq κ] [LawfulBEq κ] {key : α → κ} {l : List α}
    (hkeys : (l.map key).Nodup) {a : α} (ha : a ∈ l) : l.find? (key · == key a) = some a := by
  obtain ⟨b, hfind⟩ : ∃ b, l.find? (key · == key a) = some b :=
    Option.isSome_iff_exists.mp (List.find?_isSome.mpr ⟨a, ha, beq_self_eq_true _⟩)
  have hkey : key b = key a := by simpa using List.find?_some hfind
  rw [hfind, List.inj_on_of_nodup_map hkeys (List.mem_of_find?_eq_some hfind) ha hkey]

/-- The acquisitions that have not been dropped, each a ticket and a run. -/
structure Arrivals where
  created : List (Nat × RunId)
  /-- Those that have been polled, by first poll. -/
  line : List (Nat × RunId)
  next : Nat

namespace Arrivals

def start : Arrivals := ⟨[], [], 0⟩

def runOf? (s : Arrivals) (ticket : Nat) : Option RunId :=
  (s.created.find? (·.1 == ticket)).map (·.2)

/-- An acquisition is polled for the first time. -/
def join (s : Arrivals) (ticket : Nat) (run : RunId) : Arrivals :=
  { s with line := s.line ++ [(ticket, run)] }

def step (s : Arrivals) : LockEvent → Arrivals
  | .create run => { s with created := s.created ++ [(s.next, run)], next := s.next + 1 }
  | .poll ticket =>
    match s.runOf? ticket with
    | some run => if (ticket, run) ∈ s.line then s else s.join ticket run
    | none => s
  | .drop ticket =>
    { s with
      created := s.created.filter (·.1 != ticket)
      line := s.line.filter (·.1 != ticket) }

def after (events : List LockEvent) : Arrivals := events.foldl step start

@[simp] lemma after_append_singleton (events : List LockEvent) (e : LockEvent) :
    after (events ++ [e]) = (after events).step e := List.foldl_append

/-- The acquisitions of a run that have been polled and not been dropped, by first poll. -/
def queue (s : Arrivals) (run : RunId) : List Nat := (s.line.filter (·.2 = run)).map (·.1)

/-- The run that an event is about. -/
def target? (s : Arrivals) : LockEvent → Option RunId
  | .create run => some run
  | .poll ticket => s.runOf? ticket
  | .drop ticket => s.runOf? ticket

lemma mem_queue {s : Arrivals} {run : RunId} {ticket : Nat} :
    ticket ∈ s.queue run ↔ (ticket, run) ∈ s.line := by
  simp [queue]

/-! ### Tickets are not used twice -/

structure Sound (s : Arrivals) : Prop where
  tickets : (s.created.map (·.1)).Nodup
  old : ∀ c ∈ s.created, c.1 < s.next
  line : (s.line.map (·.1)).Nodup
  created : ∀ c ∈ s.line, c ∈ s.created

lemma sound_start : start.Sound := ⟨List.nodup_nil, nofun, List.nodup_nil, nofun⟩

variable {s : Arrivals}

namespace Sound

lemma runOf?_eq_some_iff (h : s.Sound) {ticket : Nat} {run : RunId} :
    s.runOf? ticket = some run ↔ (ticket, run) ∈ s.created := by
  rw [runOf?, Option.map_eq_some_iff]
  constructor
  · rintro ⟨c, hfind, rfl⟩
    obtain rfl : c.1 = ticket := by simpa using List.find?_some hfind
    exact List.mem_of_find?_eq_some hfind
  · intro hmem
    exact ⟨_, find?_key_eq_some h.tickets hmem, rfl⟩

lemma run_eq (h : s.Sound) {ticket : Nat} {run run' : RunId} (hrun : (ticket, run) ∈ s.created)
    (hrun' : (ticket, run') ∈ s.created) : run = run' :=
  congrArg (·.2) (List.inj_on_of_nodup_map h.tickets hrun hrun' rfl)

lemma nodup_queue (h : s.Sound) (run : RunId) : (s.queue run).Nodup :=
  h.line.sublist (List.filter_sublist.map _)

lemma join (h : s.Sound) {ticket : Nat} {run : RunId} (hcreated : (ticket, run) ∈ s.created)
    (hnew : (ticket, run) ∉ s.line) : (s.join ticket run).Sound := by
  have hticket : ticket ∉ s.line.map (·.1) := by
    intro hmem
    obtain ⟨⟨_, run'⟩, hc, rfl⟩ := List.mem_map.mp hmem
    exact hnew (h.run_eq (h.created _ hc) hcreated ▸ hc)
  refine ⟨h.tickets, h.old, ?_, fun c hc => ?_⟩
  · simpa [Arrivals.join] using h.line.concat hticket
  · rcases List.mem_append.mp hc with hc | hc
    · exact h.created c hc
    · rwa [List.mem_singleton.mp hc]

lemma step_drop_eq_self (h : s.Sound) {ticket : Nat} (hnone : s.runOf? ticket = none) :
    s.step (.drop ticket) = s := by
  have hkept {c : Nat × RunId} (hc : c ∈ s.created) : c.1 != ticket := by
    rw [bne_iff_ne]
    rintro rfl
    exact Option.some_ne_none _ ((h.runOf?_eq_some_iff.mpr hc).symm.trans hnone)
  have hcreated : s.created.filter (·.1 != ticket) = s.created :=
    List.filter_eq_self.mpr fun c hc => hkept hc
  have hline : s.line.filter (·.1 != ticket) = s.line :=
    List.filter_eq_self.mpr fun c hc => hkept (h.created c hc)
  simp only [Arrivals.step, hcreated, hline]

lemma step (h : s.Sound) (e : LockEvent) : (s.step e).Sound := by
  cases e with
  | create run =>
    have hfresh : s.next ∉ s.created.map (·.1) := by
      intro hmem
      obtain ⟨c, hc, hnext⟩ := List.mem_map.mp hmem
      exact (h.old c hc).ne hnext
    refine ⟨?_, ?_, h.line, fun c hc => List.mem_append_left _ (h.created c hc)⟩
    · simpa [Arrivals.step] using h.tickets.concat hfresh
    · intro c hc
      rcases List.mem_append.mp hc with hc | hc
      · exact (h.old c hc).trans (Nat.lt_succ_self _)
      · obtain rfl := List.mem_singleton.mp hc
        exact Nat.lt_succ_self _
  | poll ticket =>
    simp only [Arrivals.step]
    split
    · rename_i run hrun
      split
      · exact h
      · rename_i hnew
        exact h.join (h.runOf?_eq_some_iff.mp hrun) hnew
    · exact h
  | drop ticket =>
    refine ⟨h.tickets.sublist (List.filter_sublist.map _),
      fun c hc => h.old c (List.mem_of_mem_filter hc),
      h.line.sublist (List.filter_sublist.map _), fun c hc => ?_⟩
    obtain ⟨hline, hkept⟩ := List.mem_filter.mp hc
    exact List.mem_filter.mpr ⟨h.created c hline, hkept⟩

end Sound

lemma sound_after (events : List LockEvent) : (after events).Sound := by
  induction events using List.reverseRecOn with
  | nil => exact sound_start
  | append_singleton events e ih => exact after_append_singleton events e ▸ ih.step e

/-! ### Queues -/

lemma queue_join (ticket : Nat) (run other : RunId) :
    (s.join ticket run).queue other =
      if other = run then s.queue other ++ [ticket] else s.queue other := by
  by_cases hother : other = run
  · simp [join, queue, hother]
  · simp [join, queue, hother, Ne.symm hother]

/-- A first poll joins the end of a queue, a later poll changes nothing. -/
lemma Sound.queue_step_poll (h : s.Sound) {ticket : Nat} {run : RunId}
    (hcreated : (ticket, run) ∈ s.created) (other : RunId) :
    (s.step (.poll ticket)).queue other =
      if ticket ∉ s.queue run ∧ other = run then s.queue other ++ [ticket] else s.queue other := by
  simp only [Arrivals.step, h.runOf?_eq_some_iff.mpr hcreated, mem_queue]
  by_cases hline : (ticket, run) ∈ s.line
  · simp [hline]
  · simp [hline, queue_join]

/-- Whoever is dropped leaves its queue, wherever its place was. -/
lemma Sound.queue_step_drop (h : s.Sound) (ticket : Nat) (run : RunId) :
    (s.step (.drop ticket)).queue run = (s.queue run).erase ticket := by
  rw [(h.nodup_queue run).erase_eq_filter]
  simp only [Arrivals.step, queue, List.filter_map, List.filter_filter]
  congr 1
  exact List.filter_congr fun c _ => by simp [Bool.and_comm]

/-- An event that is about another run, or about none, leaves the queue of a run as it is. -/
lemma Sound.queue_step_of_ne (h : s.Sound) {e : LockEvent} {run : RunId}
    (hrun : s.target? e ≠ some run) :
    (s.step e).queue run = s.queue run := by
  cases e with
  | create other => rfl
  | poll ticket =>
    rcases hother : s.runOf? ticket with _ | other
    · simp [Arrivals.step, hother]
    · rw [target?, hother] at hrun
      rw [h.queue_step_poll (h.runOf?_eq_some_iff.mp hother), if_neg]
      exact fun hself => hrun (congrArg some hself.2.symm)
  | drop ticket =>
    rw [h.queue_step_drop]
    refine List.erase_of_not_mem fun hmem => hrun ?_
    exact h.runOf?_eq_some_iff.mpr (h.created _ (mem_queue.mp hmem))

end Arrivals

end PairedTuning
