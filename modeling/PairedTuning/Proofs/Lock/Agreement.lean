import Mathlib
import PairedTuning.Proofs.Lock.Arrivals
import PairedTuning.Proofs.Lock.Entries
import PairedTuning.Proofs.Lock.Mutex

/-!
# Locks and the order of first polls

Every lock is a fair mutex. What remains to be shown is that all acquisitions of a run that are
under way ask for the same lock, although locks are made, swept out and erased all the time, and
that no other run asks for it. `Follows` says that the queue of a run's lock is the queue of the run
by first polls, and every event keeps that.
-/

namespace PairedTuning.RunLocks

variable {M : Type} {queue : M → List Nat} {t : RunLocks M} {s : Arrivals}

/-- The locks agree with the order of first polls. -/
structure Follows (queue : M → List Nat) (t : RunLocks M) (s : Arrivals) : Prop where
  entries : t.SoundEntries
  next : t.nextTicket = s.next
  created : t.acquisitions.map (fun a => (a.ticket, a.run)) = s.created
  polled : ∀ a ∈ t.acquisitions, a.lock.isSome ↔ (a.ticket, a.run) ∈ s.line
  /-- The acquisitions of a run all use the lock in the table. -/
  lock : ∀ a ∈ t.acquisitions, ∀ lock, a.lock = some lock → t.lockOf? a.run = some lock
  queue : ∀ run lock m, t.lockOf? run = some lock → t.mutexes[lock]? = some m →
    queue m = s.queue run
  holds : ∀ a ∈ t.acquisitions, a.holds → (s.queue a.run).head? = some a.ticket

lemma follows_ofHash (hash : RunId → Nat) (shards : Nat) :
    Follows queue (ofHash hash shards) .start where
  entries := soundEntries_ofHash hash shards
  next := rfl
  created := rfl
  polled _ ha := absurd ha List.not_mem_nil
  lock _ ha := absurd ha List.not_mem_nil
  queue _ _ _ _ hm := by simp [ofHash] at hm
  holds _ ha := absurd ha List.not_mem_nil

lemma inUse_of_mem {a : Acquisition} (ha : a ∈ t.acquisitions) {lock : Nat}
    (hlock : a.lock = some lock) : t.inUse lock :=
  List.any_eq_true.mpr ⟨a, ha, by simp [hlock]⟩

/-- No change to an acquisition changes whose it is. -/
lemma map_acquisitions_update (t : RunLocks M) (ticket : Nat) {f : Acquisition → Acquisition}
    (hticket : ∀ a, (f a).ticket = a.ticket) (hrun : ∀ a, (f a).run = a.run) :
    (t.update ticket f).acquisitions.map (fun a => (a.ticket, a.run)) =
      t.acquisitions.map fun a => (a.ticket, a.run) := by
  rw [update, List.map_map]
  refine List.map_congr_left fun a _ => ?_
  rw [Function.comp_apply]
  split
  · rw [hticket, hrun]
  · rfl

lemma getElem?_mutexes_remove [Mutex M] (t : RunLocks M) (a : Acquisition) (lock : Nat) :
    (t.remove a).mutexes[lock]? = (t.mutexes[lock]?).map fun m =>
      if a.lock = some lock then Mutex.leave m a.ticket else m := by
  rcases hlock : a.lock with _ | other
  · simp [remove, hlock]
  · simp [remove, hlock, List.getElem?_modify]

lemma length_mutexes_remove [Mutex M] (t : RunLocks M) (a : Acquisition) :
    (t.remove a).mutexes.length = t.mutexes.length := by
  rcases hlock : a.lock with _ | other
  · simp [remove, hlock]
  · simp [remove, hlock]

namespace Follows

lemma mem_created (h : Follows queue t s) {a : Acquisition} (ha : a ∈ t.acquisitions) :
    (a.ticket, a.run) ∈ s.created :=
  h.created ▸ List.mem_map_of_mem ha

lemma exists_acquisition (h : Follows queue t s) {ticket : Nat} {run : RunId}
    (hcreated : (ticket, run) ∈ s.created) :
    ∃ a ∈ t.acquisitions, a.ticket = ticket ∧ a.run = run := by
  rw [← h.created] at hcreated
  obtain ⟨a, ha, heq⟩ := List.mem_map.mp hcreated
  exact ⟨a, ha, congrArg (·.1) heq, congrArg (·.2) heq⟩

lemma nodup_tickets (h : Follows queue t s) (hs : s.Sound) :
    (t.acquisitions.map (·.ticket)).Nodup := by
  have htickets := hs.tickets
  rwa [← h.created, List.map_map] at htickets

lemma eq_of_ticket (h : Follows queue t s) (hs : s.Sound) {a b : Acquisition}
    (ha : a ∈ t.acquisitions) (hb : b ∈ t.acquisitions) (hticket : a.ticket = b.ticket) : a = b :=
  List.inj_on_of_nodup_map (h.nodup_tickets hs) ha hb hticket

lemma find?_eq_some (h : Follows queue t s) (hs : s.Sound) {a : Acquisition}
    (ha : a ∈ t.acquisitions) : t.find? a.ticket = some a :=
  find?_key_eq_some (h.nodup_tickets hs) ha

lemma runOf?_eq_none (h : Follows queue t s) {ticket : Nat} (hfind : t.find? ticket = none) :
    s.runOf? ticket = none := by
  rw [Arrivals.runOf?, ← h.created, List.find?_map, Option.map_map, Option.map_eq_none_iff]
  exact hfind

/-- Nobody waits for a run that has no lock in use. -/
lemma queue_eq_nil (h : Follows queue t s) (hs : s.Sound) {run : RunId}
    (hunused : ∀ lock, t.lockOf? run = some lock → ¬ t.inUse lock) : s.queue run = [] := by
  rw [List.eq_nil_iff_forall_not_mem]
  intro ticket hticket
  have hline := Arrivals.mem_queue.mp hticket
  obtain ⟨a, ha, rfl, rfl⟩ := h.exists_acquisition (hs.created _ hline)
  obtain ⟨lock, hlock⟩ := Option.isSome_iff_exists.mp ((h.polled a ha).mpr hline)
  exact hunused lock (h.lock a ha lock hlock) (inUse_of_mem ha hlock)

/-! ### Creation -/

lemma create (h : Follows queue t s) (hs : s.Sound) (run : RunId) :
    Follows queue (t.create run) (s.step (.create run)) where
  entries := h.entries.congr rfl rfl rfl
  next := congrArg (· + 1) h.next
  created := by simp [RunLocks.create, Arrivals.step, ← h.created, h.next]
  polled a ha := by
    rcases List.mem_append.mp ha with ha | ha
    · exact h.polled a ha
    · obtain rfl := List.mem_singleton.mp ha
      have hnew : (t.nextTicket, run) ∉ s.line := by
        intro hline
        exact (hs.old _ (hs.created _ hline)).ne h.next
      exact iff_of_false (by simp) hnew
  lock a ha := by
    rcases List.mem_append.mp ha with ha | ha
    · exact h.lock a ha
    · obtain rfl := List.mem_singleton.mp ha
      simp
  queue := h.queue
  holds a ha := by
    rcases List.mem_append.mp ha with ha | ha
    · exact h.holds a ha
    · obtain rfl := List.mem_singleton.mp ha
      simp

/-! ### Cleaning up -/

lemma tidy (h : Follows queue t s) (run : RunId) : Follows queue (t.tidy run) s where
  entries := h.entries.tidy run
  next := t.nextTicket_tidy run ▸ h.next
  created := t.acquisitions_tidy run ▸ h.created
  polled := t.acquisitions_tidy run ▸ h.polled
  lock a ha lock hlock := by
    rw [acquisitions_tidy] at ha
    exact lockOf?_tidy_of_inUse (h.lock a ha lock hlock) (inUse_of_mem ha hlock) run
  queue other lock m hentry hm := by
    rw [mutexes_tidy] at hm
    exact h.queue other lock m (lockOf?_of_tidy hentry) hm
  holds := t.acquisitions_tidy run ▸ h.holds

/-! ### Polling -/

variable [Mutex M]

/-- The lock that is found for a run belongs to the first of its queue. -/
lemma owner?_eq (h : Follows queue t s) (hfair : Mutex.Fair queue) {run : RunId} {lock : Nat}
    (hentry : t.lockOf? run = some lock) : t.owner? lock = (s.queue run).head? := by
  obtain ⟨m, hm⟩ : ∃ m, t.mutexes[lock]? = some m :=
    ⟨_, List.getElem?_eq_getElem (h.entries.made hentry)⟩
  rw [owner?, hm, Option.bind_some, hfair.owner?, h.queue run lock m hentry hm]

lemma makeLock (h : Follows queue t s) (hfair : Mutex.Fair queue) (hs : s.Sound) {run : RunId}
    (hunused : ∀ lock, t.lockOf? run = some lock → ¬ t.inUse lock) :
    Follows queue (t.makeLock run) s where
  entries := h.entries.makeLock run
  next := h.next
  created := h.created
  polled := h.polled
  lock a ha lock hlock := by
    have hentry := h.lock a ha lock hlock
    have huse := inUse_of_mem ha hlock
    refine h.entries.lockOf?_makeLock_of_inUse ?_ hentry huse
    rintro rfl
    exact hunused lock hentry huse
  queue other lock m hentry hm := by
    rw [RunLocks.makeLock] at hm
    by_cases hother : other = run
    · subst hother
      rw [h.entries.lockOf?_makeLock, if_pos rfl] at hentry
      obtain rfl := Option.some_injective _ hentry
      obtain rfl : Mutex.free = m := by simpa using hm
      rw [hfair.free, h.queue_eq_nil hs hunused]
    · have hold := h.entries.lockOf?_of_makeLock hother hentry
      rw [List.getElem?_append_left (h.entries.made hold)] at hm
      exact h.queue other lock m hold hm
  holds := h.holds

/-- The lock that a first poll finds is the one in the table from then on. -/
lemma lockFor (h : Follows queue t s) (hfair : Mutex.Fair queue) (hs : s.Sound) (run : RunId) :
    Follows queue (t.lockFor run).2 s ∧
      (t.lockFor run).2.lockOf? run = some (t.lockFor run).1 ∧
      (t.lockFor run).2.acquisitions = t.acquisitions := by
  have hfresh (hunused : ∀ lock, t.lockOf? run = some lock → ¬ t.inUse lock) :
      Follows queue (t.makeLock run) s ∧
        (t.makeLock run).lockOf? run = some t.mutexes.length ∧
        (t.makeLock run).acquisitions = t.acquisitions :=
    ⟨h.makeLock hfair hs hunused, by simp [h.entries.lockOf?_makeLock], rfl⟩
  rw [RunLocks.lockFor]
  split
  · rename_i lock hentry
    split
    · exact ⟨h, hentry, rfl⟩
    · rename_i huse
      exact hfresh (by simpa [hentry] using huse)
  · rename_i hentry
    exact hfresh (by simp [hentry])

lemma join (h : Follows queue t s) (hfair : Mutex.Fair queue) (hs : s.Sound) {a : Acquisition}
    (ha : a ∈ t.acquisitions) {lock : Nat} (hentry : t.lockOf? a.run = some lock) :
    Follows queue (t.join a.ticket lock) (s.join a.ticket a.run) where
  entries := h.entries.congr rfl rfl (List.length_modify _ _ _)
  next := h.next
  created := by
    have hsame := map_acquisitions_update (t.modifyMutex lock (Mutex.arrive · a.ticket)) a.ticket
      (f := fun b => { b with lock := some lock }) (fun _ => rfl) fun _ => rfl
    exact hsame.trans h.created
  polled b hb := by
    obtain ⟨c, hc, rfl⟩ := List.mem_map.mp hb
    by_cases hticket : c.ticket = a.ticket
    · obtain rfl := h.eq_of_ticket hs hc ha hticket
      simp [Arrivals.join]
    · simpa [hticket, Arrivals.join] using h.polled c hc
  lock b hb other hother := by
    obtain ⟨c, hc, rfl⟩ := List.mem_map.mp hb
    by_cases hticket : c.ticket = a.ticket
    · obtain rfl := h.eq_of_ticket hs hc ha hticket
      obtain rfl : lock = other := by simpa using hother
      simp only [if_true]
      exact hentry
    · simp only [hticket, if_false] at hother ⊢
      exact h.lock c hc other hother
  queue run other m hother hm := by
    replace hm : (t.mutexes.modify lock (Mutex.arrive · a.ticket))[other]? = some m := hm
    rw [List.getElem?_modify] at hm
    obtain ⟨m', hm', rfl⟩ := Option.map_eq_some_iff.mp hm
    have hqueue := h.queue run other m' hother hm'
    rw [Arrivals.queue_join, ← hqueue]
    by_cases hrun : run = a.run
    · subst hrun
      obtain rfl := Option.some_injective _ (hentry.symm.trans hother)
      simp [hfair.arrive]
    · have hne : lock ≠ other := by
        rintro rfl
        exact hrun (h.entries.injective hother hentry)
      simp [hrun, hne]
  holds b hb hholds := by
    obtain ⟨c, hc, rfl⟩ := List.mem_map.mp hb
    have hhead : (s.queue c.run).head? = some c.ticket := by
      refine h.holds c hc ?_
      split at hholds <;> exact hholds
    have hjoined : ((s.join a.ticket a.run).queue c.run).head? = some c.ticket := by
      rw [Arrivals.queue_join]
      split
      · rw [List.head?_append, hhead, Option.some_or]
      · exact hhead
    split <;> exact hjoined

lemma settle (h : Follows queue t s) (hfair : Mutex.Fair queue) (hs : s.Sound) {a : Acquisition}
    (ha : a ∈ t.acquisitions) {lock : Nat} (hlock : a.lock = some lock) :
    Follows queue (t.settle a.ticket lock) s := by
  rw [RunLocks.settle]
  split
  · rename_i howner
    have hsame := map_acquisitions_update t a.ticket
      (f := fun b => { b with holds := true }) (fun _ => rfl) fun _ => rfl
    refine ⟨h.entries.congr rfl rfl rfl, h.next, hsame.trans h.created, ?_, ?_, h.queue, ?_⟩
    · intro b hb
      obtain ⟨c, hc, rfl⟩ := List.mem_map.mp hb
      split <;> exact h.polled c hc
    · intro b hb
      obtain ⟨c, hc, rfl⟩ := List.mem_map.mp hb
      split <;> exact h.lock c hc
    · intro b hb
      obtain ⟨c, hc, rfl⟩ := List.mem_map.mp hb
      split
      · rename_i hticket
        obtain rfl := h.eq_of_ticket hs hc ha hticket
        exact fun _ => (h.owner?_eq hfair (h.lock c hc lock hlock)).symm.trans howner
      · exact h.holds c hc
  · exact h

lemma poll (h : Follows queue t s) (hfair : Mutex.Fair queue) (hs : s.Sound) (ticket : Nat) :
    Follows queue (t.poll ticket) (s.step (.poll ticket)) := by
  rcases hfind : t.find? ticket with _ | a
  · simp only [RunLocks.poll, hfind, Arrivals.step, h.runOf?_eq_none hfind]
    exact h
  · have ha := List.mem_of_find?_eq_some hfind
    obtain rfl : a.ticket = ticket := by simpa using List.find?_some hfind
    have hcreated := h.mem_created ha
    have hrun : s.runOf? a.ticket = some a.run := hs.runOf?_eq_some_iff.mpr hcreated
    rcases hlock : a.lock with _ | lock
    · have hnew : (a.ticket, a.run) ∉ s.line := by
        simp [← h.polled a ha, hlock]
      simp only [RunLocks.poll, hfind, hlock, Arrivals.step, hrun, hnew, if_false]
      obtain ⟨hfound, hentry, hsame⟩ := h.lockFor hfair hs a.run
      have ha' : a ∈ (t.lockFor a.run).2.acquisitions := hsame ▸ ha
      have hjoined := hfound.join hfair hs ha' hentry
      have hmem : { a with lock := some (t.lockFor a.run).1 } ∈
          ((t.lockFor a.run).2.join a.ticket (t.lockFor a.run).1).acquisitions :=
        List.mem_map.mpr ⟨a, ha', if_pos rfl⟩
      exact hjoined.settle hfair (hs.join hcreated hnew) hmem rfl
    · have hline : (a.ticket, a.run) ∈ s.line := by
        rw [← h.polled a ha, hlock]
        rfl
      simp only [RunLocks.poll, hfind, hlock, Arrivals.step, hrun, hline, if_true]
      exact h.settle hfair hs ha hlock

/-! ### Dropping -/

/-- A queue keeps its head when somebody else leaves. -/
lemma head?_queue_step_drop (hs : s.Sound) {run : RunId} {ticket other : Nat}
    (hhead : (s.queue run).head? = some other) (hne : other ≠ ticket) :
    ((s.step (.drop ticket)).queue run).head? = some other := by
  obtain ⟨rest, hqueue⟩ := List.head?_eq_some_iff.mp hhead
  rw [hs.queue_step_drop, hqueue, List.erase_cons_tail (by simpa using hne), List.head?_cons]

lemma remove (h : Follows queue t s) (hfair : Mutex.Fair queue) (hs : s.Sound) {a : Acquisition}
    (ha : a ∈ t.acquisitions) : Follows queue (t.remove a) (s.step (.drop a.ticket)) where
  entries := h.entries.congr rfl rfl (length_mutexes_remove t a)
  next := h.next
  created := by
    rw [Arrivals.step, ← h.created, List.filter_map]
    rfl
  polled b hb := by
    obtain ⟨hb, hne⟩ := List.mem_filter.mp hb
    rw [h.polled b hb, Arrivals.step, List.mem_filter]
    exact (and_iff_left hne).symm
  lock b hb := h.lock b (List.mem_of_mem_filter hb)
  queue run lock m hentry hm := by
    rw [getElem?_mutexes_remove] at hm
    obtain ⟨m', hm', rfl⟩ := Option.map_eq_some_iff.mp hm
    have hqueue := h.queue run lock m' hentry hm'
    rw [hs.queue_step_drop, ← hqueue]
    split
    · exact hfair.leave m' a.ticket
    · rename_i hlock
      refine (List.erase_of_not_mem fun hmem => hlock ?_).symm
      rw [hqueue] at hmem
      have hline := Arrivals.mem_queue.mp hmem
      obtain rfl := hs.run_eq (hs.created _ hline) (h.mem_created ha)
      obtain ⟨other, hother⟩ := Option.isSome_iff_exists.mp ((h.polled a ha).mpr hline)
      exact hother.trans ((h.lock a ha other hother).symm.trans hentry)
  holds b hb hholds := by
    obtain ⟨hb, hne⟩ := List.mem_filter.mp hb
    exact head?_queue_step_drop hs (h.holds b hb hholds) (by simpa using hne)

lemma drop (h : Follows queue t s) (hfair : Mutex.Fair queue) (hs : s.Sound) (ticket : Nat) :
    Follows queue (t.drop ticket) (s.step (.drop ticket)) := by
  rcases hfind : t.find? ticket with _ | a
  · rw [RunLocks.drop, hfind, hs.step_drop_eq_self (h.runOf?_eq_none hfind)]
    exact h
  · have ha := List.mem_of_find?_eq_some hfind
    obtain rfl : a.ticket = ticket := by simpa using List.find?_some hfind
    have hremoved := h.remove hfair hs ha
    simp only [RunLocks.drop, hfind]
    split
    · exact hremoved.tidy a.run
    · exact hremoved

lemma step (h : Follows queue t s) (hfair : Mutex.Fair queue) (hs : s.Sound) (e : LockEvent) :
    Follows queue (t.step e) (s.step e) := by
  cases e with
  | create run => exact h.create hs run
  | poll ticket => exact h.poll hfair hs ticket
  | drop ticket => exact h.drop hfair hs ticket

end Follows

/-! ### All sequences of events -/

variable [Mutex M]

def after (t : RunLocks M) (events : List LockEvent) : RunLocks M := events.foldl step t

@[simp] lemma after_append_singleton (t : RunLocks M) (events : List LockEvent) (e : LockEvent) :
    t.after (events ++ [e]) = (t.after events).step e := List.foldl_append

lemma follows_after (hfair : Mutex.Fair queue) (hash : RunId → Nat) (shards : Nat)
    (events : List LockEvent) :
    Follows queue ((ofHash hash shards).after events) (.after events) := by
  induction events using List.reverseRecOn with
  | nil => exact follows_ofHash hash shards
  | append_singleton events e ih =>
    rw [after_append_singleton, Arrivals.after_append_singleton]
    exact ih.step hfair (Arrivals.sound_after events) e

end PairedTuning.RunLocks
