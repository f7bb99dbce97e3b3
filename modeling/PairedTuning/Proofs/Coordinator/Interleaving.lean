import Mathlib
import PairedTuning.Proofs.Coordinator.Phases
import PairedTuning.Proofs.Lock.Holding

/-!
# Calls that overlap

Calls are answered at the same time and may be interrupted between any two of their phases: asking
for the lock, getting it, reading the run, deciding, writing it back, and letting the lock go. An
`Interleaving` takes them forward in any order that the locks allow.

`Serialised` says that this makes no difference. The answers and the store are those of the calls
that got their locks, answered one after the other in the order in which they got them. The store
may lag behind that order, but only by what the calls inside will still do (`Replays.store`), and
these are calls on different runs.
-/

namespace PairedTuning

/-! ### Interleavings -/

/-- How far a call has come that has got the lock of its run. -/
inductive Stage (α : Type) where
  | entered
  | read (found : Except StoreError (Option (Run α)))
  /-- It is about to write a run back. -/
  | writing (r : Run α) (success failure : Answer α)
  /-- It has its answer and still holds the lock. -/
  | settled (a : Answer α)
  /-- It has let the lock go. -/
  | left (a : Answer α)

/-- A call that has got the lock of its run. -/
structure Visit (α : Type) where
  /-- The ticket of its acquisition. -/
  ticket : Nat
  call : Call
  stage : Stage α

namespace Visit

variable {α : Type}

/-- Whether the call holds the lock. -/
def isInside (v : Visit α) : Bool :=
  match v.stage with
  | .left _ => false
  | _ => true

/-- Whether the call still has no answer. -/
def isOpen (v : Visit α) : Bool :=
  match v.stage with
  | .settled _ => false
  | .left _ => false
  | _ => true

lemma isInside_of_isOpen {v : Visit α} (h : v.isOpen) : v.isInside := by
  obtain ⟨ticket, call, stage⟩ := v
  cases stage with
  | left a => cases h
  | _ => rfl

end Visit

/-- Calls under way. -/
structure Interleaving (M α : Type) where
  locks : RunLocks M
  store : Store α
  /-- The calls that wait for the locks of their runs, each with the ticket of its acquisition. -/
  waiting : List (Nat × Call)
  /-- The calls that have got their locks, in the order in which they got them. -/
  visits : List (Visit α)
  /-- The calls that take no lock, with their answers. -/
  turnedAway : List (Call × Answer α)

inductive Move where
  | start (c : Call)
  | poll (ticket : Nat)
  /-- A call is given up while it waits. -/
  | cancel (ticket : Nat)
  /-- The call at a position among the visits goes through its next phase. -/
  | advance (i : Nat)

namespace Interleaving

variable {M α : Type} [Mutex M] [Scalar α]

/-- Before any call. -/
def start (hash : RunId → Nat) (shards : Nat) (store : Store α) : Interleaving M α :=
  { locks := .ofHash hash shards, store, waiting := [], visits := [], turnedAway := [] }

def setStage (m : Interleaving M α) (i : Nat) (v : Visit α) (stage : Stage α) :
    Interleaving M α :=
  { m with visits := m.visits.set i { v with stage } }

/-- The next phase of the visit at a position. -/
def advance (m : Interleaving M α) (i : Nat) (v : Visit α) : Interleaving M α :=
  match v.stage with
  | .entered =>
    let (found, store) := Store.repository.get m.store v.call.run
    { m.setStage i v (.read found) with store }
  | .read found =>
    match v.call.decide found with
    | .answer a => m.setStage i v (.settled a)
    | .write r success failure => m.setStage i v (.writing r success failure)
  | .writing r success failure =>
    let (outcome, store) := Store.repository.buffer m.store r
    { m.setStage i v (.settled (.ofWrite success failure outcome)) with store }
  | .settled a => { m.setStage i v (.left a) with locks := m.locks.drop v.ticket }
  | .left _ => m

def step (m : Interleaving M α) : Move → Interleaving M α
  | .start c =>
    if c.takesLock then
      { m with
        locks := m.locks.create c.run
        waiting := m.waiting ++ [(m.locks.nextTicket, c)] }
    else
      let (a, store) := Coordinator.call Store.repository m.store c
      { m with store, turnedAway := m.turnedAway ++ [(c, a)] }
  | .poll ticket =>
    match m.waiting.find? (·.1 == ticket) with
    | none => m
    | some (_, c) =>
      let locks := m.locks.poll ticket
      if locks.grants ticket then
        { m with
          locks
          waiting := m.waiting.filter (·.1 != ticket)
          visits := m.visits ++ [⟨ticket, c, .entered⟩] }
      else { m with locks }
  | .cancel ticket =>
    match m.waiting.find? (·.1 == ticket) with
    | none => m
    | some _ =>
      { m with
        locks := m.locks.drop ticket
        waiting := m.waiting.filter (·.1 != ticket) }
  | .advance i =>
    match m.visits[i]? with
    | none => m
    | some v => m.advance i v

def after (m : Interleaving M α) (moves : List Move) : Interleaving M α := moves.foldl step m

@[simp] lemma after_append_singleton (m : Interleaving M α) (moves : List Move) (e : Move) :
    m.after (moves ++ [e]) = (m.after moves).step e := List.foldl_append

end Interleaving

/-! ### One call after the other -/

namespace Coordinator

variable {σ α : Type} [Scalar α]

lemma trace_append_singleton (repo : Repository σ α) (s : σ) (calls : List Call) (c : Call) :
    trace repo s (calls ++ [c]) =
      trace repo s calls ++ [⟨after repo s calls, c, (call repo (after repo s calls) c).1⟩] := by
  induction calls generalizing s with
  | nil => rfl
  | cons c' calls ih => simp only [List.cons_append, trace_cons, after_cons, ih]

variable {s : Store α} {c : Call}

lemma read_after_ne (hs : s.Filed) {calls : List Call} (hlock : ∀ c' ∈ calls, c'.takesLock)
    (hne : ∀ c' ∈ calls, c'.run ≠ c.run) :
    (after Store.repository s calls).read c = s.read c := by
  induction calls generalizing s with
  | nil => rfl
  | cons c' calls ih =>
    rw [List.forall_mem_cons] at hlock hne
    rw [after_cons, ih (filed_call hs c') hlock.2 hne.2, read_call_ne hs hlock.1 hne.1]

/-- A call may be brought forward before calls on other runs. -/
lemma after_append_cons (hs : s.Filed) (hc : c.takesLock) {calls : List Call}
    (hlock : ∀ c' ∈ calls, c'.takesLock) (hne : ∀ c' ∈ calls, c'.run ≠ c.run)
    (more : List Call) :
    after Store.repository s (calls ++ c :: more) =
      after Store.repository (call Store.repository s c).2 (calls ++ more) := by
  induction calls generalizing s with
  | nil => rfl
  | cons c' calls ih =>
    rw [List.forall_mem_cons] at hlock hne
    rw [List.cons_append, after_cons, ih (filed_call hs c') hlock.2 hne.2,
      call_comm hs hlock.1 hc hne.1]
    rfl

end Coordinator

/-! ### What the visits stand for -/

namespace Visit

variable {α : Type} [Scalar α]

/-- The answer that a call has, or will have if nothing happens to its run. -/
def answer (s : Store α) (v : Visit α) : Answer α :=
  match v.stage with
  | .settled a => a
  | .left a => a
  | _ => (Coordinator.call Store.repository s v.call).1

/-- What a call has read is still in the store. -/
def Agrees (s : Store α) (v : Visit α) : Prop :=
  match v.stage with
  | .read found => found = s.read v.call
  | .writing r success failure => v.call.decide (s.read v.call) = .write r success failure
  | _ => True

lemma answer_congr {s s' : Store α} {v : Visit α} (hs : s.Filed) (hs' : s'.Filed)
    (hlock : v.call.takesLock) (hread : v.isOpen → s'.read v.call = s.read v.call) :
    v.answer s' = v.answer s := by
  obtain ⟨ticket, call, stage⟩ := v
  cases stage with
  | settled a => rfl
  | left a => rfl
  | _ => exact Coordinator.call_answer_congr hs hs' hlock (hread rfl)

lemma Agrees.congr {s s' : Store α} {v : Visit α} (h : v.Agrees s)
    (hread : v.isOpen → s'.read v.call = s.read v.call) : v.Agrees s' := by
  obtain ⟨ticket, call, stage⟩ := v
  cases stage with
  | read found => exact h.trans (hread rfl).symm
  | writing r success failure =>
    rw [Agrees, hread rfl]
    exact h
  | _ => trivial

end Visit

/-- The calls that have no answer yet. -/
def openCalls {α : Type} (visits : List (Visit α)) : List Call :=
  (visits.filter (·.isOpen)).map (·.call)

section

variable {α : Type}

@[simp] lemma openCalls_append (visits more : List (Visit α)) :
    openCalls (visits ++ more) = openCalls visits ++ openCalls more := by
  simp [openCalls]

lemma openCalls_cons_of_isOpen {v : Visit α} (h : v.isOpen) (visits : List (Visit α)) :
    openCalls (v :: visits) = v.call :: openCalls visits := by
  simp [openCalls, h]

lemma openCalls_cons_of_not_isOpen {v : Visit α} (h : v.isOpen = false)
    (visits : List (Visit α)) : openCalls (v :: visits) = openCalls visits := by
  simp [openCalls, h]

lemma forall_mem_openCalls {visits : List (Visit α)} {p : Call → Prop} :
    (∀ c ∈ openCalls visits, p c) ↔ ∀ v ∈ visits, v.isOpen → p v.call := by
  simp only [openCalls, List.forall_mem_map, List.mem_filter, and_imp]

end

/-- The visits are what answering their calls one after the other would be, from `s₀` on. The calls
that have no answer yet are still missing from the store. -/
structure Replays {α : Type} [Scalar α] (s₀ s : Store α) (visits : List (Visit α)) : Prop where
  filed : s.Filed
  locked : ∀ v ∈ visits, v.call.takesLock
  agrees : ∀ v ∈ visits, v.Agrees s
  answers : (Coordinator.trace Store.repository s₀ (visits.map (·.call))).map (·.answer) =
    visits.map (·.answer s)
  store : Coordinator.after Store.repository s₀ (visits.map (·.call)) =
    Coordinator.after Store.repository s (openCalls visits)

namespace Replays

variable {α : Type} [Scalar α] {s₀ s : Store α} {pre post visits : List (Visit α)} {v : Visit α}

lemma nil (hs : s.Filed) : Replays s s [] where
  filed := hs
  locked := by simp
  agrees := by simp
  answers := by simp
  store := by simp [openCalls]

/-- A call enters while no other call is inside on its run. -/
lemma enter (h : Replays s₀ s visits) {ticket : Nat} {c : Call} (hlock : c.takesLock)
    (hne : ∀ w ∈ visits, w.isOpen → w.call.run ≠ c.run) :
    Replays s₀ s (visits ++ [⟨ticket, c, .entered⟩]) where
  filed := h.filed
  locked w hw := by
    rcases List.mem_append.mp hw with hw | hw
    · exact h.locked w hw
    · rw [List.mem_singleton.mp hw]
      exact hlock
  agrees w hw := by
    rcases List.mem_append.mp hw with hw | hw
    · exact h.agrees w hw
    · rw [List.mem_singleton.mp hw]
      trivial
  answers := by
    have hread : (Coordinator.after Store.repository s (openCalls visits)).read c = s.read c :=
      Coordinator.read_after_ne h.filed
        (forall_mem_openCalls.mpr fun w hw _ => h.locked w hw) (forall_mem_openCalls.mpr hne)
    have hanswer := Coordinator.call_answer_congr h.filed
      (Coordinator.filed_after h.filed (openCalls visits)) hlock hread
    simp only [List.map_append, List.map_cons, List.map_nil, Coordinator.trace_append_singleton,
      h.answers, h.store, hanswer, Visit.answer]
  store := by
    rw [List.map_append, Coordinator.after_append, h.store, openCalls_append,
      Coordinator.after_append, openCalls_cons_of_isOpen rfl]
    simp only [List.map_cons, List.map_nil, openCalls, List.filter_nil]

/-- A call goes on without having got its answer, or leaves with the one it has. -/
lemma restage (h : Replays s₀ s (pre ++ v :: post)) {stage : Stage α}
    (hagrees : { v with stage }.Agrees s) (hanswer : { v with stage }.answer s = v.answer s)
    (hopen : { v with stage }.isOpen = v.isOpen) :
    Replays s₀ s (pre ++ { v with stage } :: post) where
  filed := h.filed
  locked := by
    have hall := h.locked
    rw [List.forall_mem_append, List.forall_mem_cons] at hall ⊢
    exact hall
  agrees := by
    have hall := h.agrees
    rw [List.forall_mem_append, List.forall_mem_cons] at hall ⊢
    exact ⟨hall.1, hagrees, hall.2.2⟩
  answers := by
    have hanswers := h.answers
    simp only [List.map_append, List.map_cons, hanswer] at hanswers ⊢
    exact hanswers
  store := by
    have hstore := h.store
    have hcalls : openCalls (pre ++ { v with stage } :: post) = openCalls (pre ++ v :: post) := by
      rcases hv : v.isOpen
      · rw [hv] at hopen
        simp only [openCalls_append, openCalls_cons_of_not_isOpen hopen,
          openCalls_cons_of_not_isOpen hv]
      · rw [hv] at hopen
        simp only [openCalls_append, openCalls_cons_of_isOpen hopen, openCalls_cons_of_isOpen hv]
    rw [hcalls]
    simpa using hstore

/-- A call gets its answer and has its effect on the store, while all other calls that are still
open are on other runs. -/
lemma settle (h : Replays s₀ s (pre ++ v :: post)) (hopen : v.isOpen)
    (hne : ∀ w ∈ pre ++ post, w.isOpen → w.call.run ≠ v.call.run) :
    Replays s₀ (Coordinator.call Store.repository s v.call).2
      (pre ++ { v with stage := .settled (Coordinator.call Store.repository s v.call).1 } ::
        post) := by
  have hlocked := h.locked
  have hagrees := h.agrees
  rw [List.forall_mem_append, List.forall_mem_cons] at hlocked hagrees
  rw [List.forall_mem_append] at hne
  obtain ⟨hpre, hv, hpost⟩ := hlocked
  have hfiled := Coordinator.filed_call h.filed v.call
  have hread {w : Visit α} (hw : w.call.run ≠ v.call.run) :
      (Coordinator.call Store.repository s v.call).2.read w.call = s.read w.call :=
    Coordinator.read_call_ne h.filed hv hw.symm
  have hanswer : v.answer s = (Coordinator.call Store.repository s v.call).1 := by
    obtain ⟨ticket, call, stage⟩ := v
    cases stage with
    | settled a => cases hopen
    | left a => cases hopen
    | _ => rfl
  refine ⟨hfiled, ?_, ?_, ?_, ?_⟩
  · rw [List.forall_mem_append, List.forall_mem_cons]
    exact ⟨hpre, hv, hpost⟩
  · rw [List.forall_mem_append, List.forall_mem_cons]
    exact ⟨fun w hw => (hagrees.1 w hw).congr fun hw' => hread (hne.1 w hw hw'), trivial,
      fun w hw => (hagrees.2.2 w hw).congr fun hw' => hread (hne.2 w hw hw')⟩
  · have hanswers := h.answers
    have hcongr {ws : List (Visit α)} (hws : ∀ w ∈ ws, w.call.takesLock)
        (hne' : ∀ w ∈ ws, w.isOpen → w.call.run ≠ v.call.run) :
        ws.map (·.answer (Coordinator.call Store.repository s v.call).2) =
          ws.map (·.answer s) :=
      List.map_congr_left fun w hw =>
        Visit.answer_congr h.filed hfiled (hws w hw) fun hw' => hread (hne' w hw hw')
    simp only [List.map_append, List.map_cons, hcongr hpre hne.1, hcongr hpost hne.2] at hanswers ⊢
    rw [hanswers, hanswer]
    rfl
  · have hstore := h.store
    rw [openCalls_append, openCalls_cons_of_isOpen hopen, Coordinator.after_append_cons h.filed hv
      (forall_mem_openCalls.mpr fun w hw _ => hpre w hw) (forall_mem_openCalls.mpr hne.1)] at hstore
    rw [openCalls_append, openCalls_cons_of_not_isOpen rfl]
    simpa using hstore

end Replays

/-! ### Who is inside -/

/-- What is found at a position of a list can be replaced there. -/
lemma exists_append_of_getElem? {β : Type} {l : List β} {i : Nat} {x : β} (h : l[i]? = some x) :
    ∃ pre post, l = pre ++ x :: post ∧ ∀ y, l.set i y = pre ++ y :: post := by
  obtain ⟨hi, rfl⟩ := List.getElem?_eq_some_iff.mp h
  exact ⟨l.take i, l.drop (i + 1), by simp, fun y => List.set_eq_take_append_cons_drop.trans
    (if_pos hi)⟩

namespace Arrivals

/-- A poll neither creates nor drops. -/
lemma step_poll_fields (s : Arrivals) (ticket : Nat) :
    (s.step (.poll ticket)).created = s.created ∧ (s.step (.poll ticket)).next = s.next := by
  simp only [step]
  split
  · split <;> exact ⟨rfl, rfl⟩
  · exact ⟨rfl, rfl⟩

lemma mem_created_step_drop {s : Arrivals} {c : Nat × RunId} {ticket : Nat} (hc : c ∈ s.created)
    (hne : c.1 ≠ ticket) : c ∈ (s.step (.drop ticket)).created :=
  List.mem_filter.mpr ⟨hc, by simpa using hne⟩

end Arrivals

namespace Interleaving

variable {M α : Type} {queue : M → List Nat}

/-- Every call that waits has an acquisition, and every call that is inside holds its lock. -/
structure Guarded (queue : M → List Nat) (s : Arrivals) (m : Interleaving M α) : Prop where
  sound : s.Sound
  follows : RunLocks.Follows queue m.locks s
  waiting : ∀ w ∈ m.waiting, (w.1, w.2.run) ∈ s.created ∧ w.2.takesLock
  held : ∀ v ∈ m.visits, v.isInside → m.locks.HeldBy v.call.run v.ticket
  tickets : (m.visits.map (·.ticket)).Nodup
  apart : ∀ v ∈ m.visits, ∀ w ∈ m.waiting, v.ticket ≠ w.1
  old : ∀ v ∈ m.visits, v.ticket < s.next

namespace Guarded

variable {s : Arrivals} {m : Interleaving M α} {v : Visit α} {pre post : List (Visit α)}

/-- No two calls are inside on the same run. -/
lemma exclusive (h : Guarded queue s m) :
    m.visits.Pairwise fun v w => v.isInside → w.isInside → v.call.run ≠ w.call.run := by
  refine (List.pairwise_map.mp h.tickets).imp_of_mem fun hv hw hne hinside hinside' hrun => ?_
  have hheld := h.held _ hv hinside
  rw [hrun] at hheld
  exact hne (h.follows.eq_of_heldBy hheld (h.held _ hw hinside'))

lemma run_ne (h : Guarded queue s m) (hvisits : m.visits = pre ++ v :: post)
    (hinside : v.isInside) : ∀ w ∈ pre ++ post, w.isInside → w.call.run ≠ v.call.run := by
  have hexclusive := h.exclusive
  rw [hvisits, List.pairwise_append, List.pairwise_cons] at hexclusive
  obtain ⟨-, ⟨hpost, -⟩, hpre⟩ := hexclusive
  intro w hw hinside'
  rcases List.mem_append.mp hw with hw | hw
  · exact hpre w hw v List.mem_cons_self hinside' hinside
  · exact (hpost w hw hinside hinside').symm

/-- A call that is inside goes on with the lock. -/
lemma restage (h : Guarded queue s m) (hvisits : m.visits = pre ++ v :: post)
    (hinside : v.isInside) (stage : Stage α) (store : Store α) :
    Guarded queue s { m with store, visits := pre ++ { v with stage } :: post } := by
  obtain ⟨hsound, hfollows, hwaiting, hheld, htickets, hapart, hold⟩ := h
  rw [hvisits] at hheld htickets hapart hold
  rw [List.forall_mem_append, List.forall_mem_cons] at hheld hapart hold
  refine ⟨hsound, hfollows, hwaiting, ?_, by simpa using htickets, ?_, ?_⟩
  · rw [List.forall_mem_append, List.forall_mem_cons]
    exact ⟨hheld.1, fun _ => hheld.2.1 hinside, hheld.2.2⟩
  · rw [List.forall_mem_append, List.forall_mem_cons]
    exact hapart
  · rw [List.forall_mem_append, List.forall_mem_cons]
    exact hold

lemma create (h : Guarded queue s m) {c : Call} (hlock : c.takesLock) :
    Guarded queue (s.step (.create c.run))
      { m with
        locks := m.locks.create c.run
        waiting := m.waiting ++ [(m.locks.nextTicket, c)] } where
  sound := h.sound.step _
  follows := h.follows.create h.sound c.run
  waiting := by
    rw [List.forall_mem_append, List.forall_mem_singleton]
    refine ⟨fun w hw => ⟨List.mem_append_left _ (h.waiting w hw).1, (h.waiting w hw).2⟩, ?_, hlock⟩
    rw [h.follows.next]
    exact List.mem_append_right _ (List.mem_singleton_self _)
  held v hv hinside := (h.held v hv hinside).create c.run
  tickets := h.tickets
  apart v hv := by
    rw [List.forall_mem_append, List.forall_mem_singleton]
    refine ⟨h.apart v hv, ?_⟩
    rw [h.follows.next]
    exact (h.old v hv).ne
  old v hv := (h.old v hv).trans (Nat.lt_succ_self _)

/-- A call enters once its acquisition has got the lock. -/
lemma enter (h : Guarded queue s m) {ticket : Nat} {c : Call} (hw : (ticket, c) ∈ m.waiting)
    (hgrants : m.locks.grants ticket) :
    Guarded queue s
      { m with
        waiting := m.waiting.filter (·.1 != ticket)
        visits := m.visits ++ [⟨ticket, c, .entered⟩] } := by
  have hcreated := (h.waiting _ hw).1
  have hapart {w : Nat × Call} (hw : w ∈ m.waiting.filter (·.1 != ticket)) :
      w ∈ m.waiting ∧ ticket ≠ w.1 := by
    obtain ⟨hw, hne⟩ := List.mem_filter.mp hw
    exact ⟨hw, (bne_iff_ne.mp hne).symm⟩
  refine ⟨h.sound, h.follows, fun w hw => h.waiting w (hapart hw).1, ?_, ?_, ?_, ?_⟩
  · rw [List.forall_mem_append, List.forall_mem_singleton]
    exact ⟨h.held, fun _ => h.follows.heldBy_of_grants h.sound hcreated hgrants⟩
  · have hnew : ticket ∉ m.visits.map (·.ticket) := by
      intro hmem
      obtain ⟨v, hv, hticket⟩ := List.mem_map.mp hmem
      exact h.apart v hv _ hw hticket
    rw [List.map_append, List.map_singleton]
    exact h.tickets.append (List.nodup_singleton ticket) (List.disjoint_singleton.mpr hnew)
  · rw [List.forall_mem_append, List.forall_mem_singleton]
    exact ⟨fun v hv w hw => h.apart v hv w (hapart hw).1, fun w hw => (hapart hw).2⟩
  · rw [List.forall_mem_append, List.forall_mem_singleton]
    exact ⟨h.old, h.sound.old _ hcreated⟩

variable [Mutex M]

lemma leave (h : Guarded queue s m) (hfair : Mutex.Fair queue)
    (hvisits : m.visits = pre ++ v :: post) (a : Answer α) :
    Guarded queue (s.step (.drop v.ticket))
      { m with
        locks := m.locks.drop v.ticket
        visits := pre ++ { v with stage := .left a } :: post } := by
  obtain ⟨hsound, hfollows, hwaiting, hheld, htickets, hapart, hold⟩ := h
  rw [hvisits] at hheld htickets hapart hold
  rw [List.forall_mem_append, List.forall_mem_cons] at hheld hapart hold
  have hne : ∀ w ∈ pre ++ post, w.ticket ≠ v.ticket := by
    simp only [List.map_append, List.map_cons, List.nodup_middle, List.nodup_cons] at htickets
    intro w hw hticket
    rw [← List.map_append, ← hticket] at htickets
    exact htickets.1 (List.mem_map_of_mem hw)
  rw [List.forall_mem_append] at hne
  refine ⟨hsound.step _, hfollows.drop hfair hsound v.ticket, ?_, ?_, by simpa using htickets, ?_,
    ?_⟩
  · intro w hw
    exact ⟨Arrivals.mem_created_step_drop (hwaiting w hw).1 (hapart.2.1 w hw).symm,
      (hwaiting w hw).2⟩
  · rw [List.forall_mem_append, List.forall_mem_cons]
    exact ⟨fun w hw hinside => (hheld.1 w hw hinside).drop (hne.1 w hw), nofun,
      fun w hw hinside => (hheld.2.2 w hw hinside).drop (hne.2 w hw)⟩
  · rw [List.forall_mem_append, List.forall_mem_cons]
    exact hapart
  · rw [List.forall_mem_append, List.forall_mem_cons]
    exact hold

lemma poll (h : Guarded queue s m) (hfair : Mutex.Fair queue) (ticket : Nat) :
    Guarded queue (s.step (.poll ticket)) { m with locks := m.locks.poll ticket } := by
  obtain ⟨hcreated, hnext⟩ := s.step_poll_fields ticket
  exact ⟨h.sound.step _, h.follows.poll hfair h.sound ticket, hcreated ▸ h.waiting,
    fun v hv hinside => (h.held v hv hinside).poll ticket, h.tickets, h.apart, hnext ▸ h.old⟩

lemma cancel (h : Guarded queue s m) (hfair : Mutex.Fair queue) {ticket : Nat} {c : Call}
    (hw : (ticket, c) ∈ m.waiting) :
    Guarded queue (s.step (.drop ticket))
      { m with
        locks := m.locks.drop ticket
        waiting := m.waiting.filter (·.1 != ticket) } where
  sound := h.sound.step _
  follows := h.follows.drop hfair h.sound ticket
  waiting w hw := by
    obtain ⟨hw, hne⟩ := List.mem_filter.mp hw
    exact ⟨Arrivals.mem_created_step_drop (h.waiting w hw).1 (by simpa using hne),
      (h.waiting w hw).2⟩
  held v hv hinside := (h.held v hv hinside).drop (h.apart v hv _ hw)
  tickets := h.tickets
  apart v hv w hw := h.apart v hv w (List.mem_of_mem_filter hw)
  old := h.old

end Guarded

/-! ### All interleavings -/

variable [Mutex M] [Scalar α] {s₀ : Store α}

/-- What every move keeps. -/
structure Kept (queue : M → List Nat) (s₀ : Store α) (m : Interleaving M α) : Prop where
  guarded : ∃ s, Guarded queue s m
  replays : Replays s₀ m.store m.visits
  turnedAway : ∀ w ∈ m.turnedAway, ∀ s : Store α,
    Coordinator.call Store.repository s w.1 = (w.2, s)

namespace Kept

variable {m : Interleaving M α}

lemma advance (h : Kept queue s₀ m) (hfair : Mutex.Fair queue) {i : Nat} {v : Visit α}
    (hv : m.visits[i]? = some v) : Kept queue s₀ (m.advance i v) := by
  obtain ⟨⟨s, hguarded⟩, hreplays, hturned⟩ := h
  obtain ⟨pre, post, hvisits, hset⟩ := exists_append_of_getElem? hv
  have hlock := hreplays.locked v (List.mem_of_getElem? hv)
  have hagrees := hreplays.agrees v (List.mem_of_getElem? hv)
  have hfiled := hreplays.filed
  have hsettle (hopen : v.isOpen) :
      Kept queue s₀ { m with
        store := (Coordinator.call Store.repository m.store v.call).2
        visits := pre ++ { v with
          stage := .settled (Coordinator.call Store.repository m.store v.call).1 } :: post } := by
    have hne : ∀ w ∈ pre ++ post, w.isOpen → w.call.run ≠ v.call.run := fun w hw hopen' =>
      hguarded.run_ne hvisits (Visit.isInside_of_isOpen hopen) w hw
        (Visit.isInside_of_isOpen hopen')
    rw [hvisits] at hreplays
    exact ⟨⟨s, hguarded.restage hvisits (Visit.isInside_of_isOpen hopen) _ _⟩,
      hreplays.settle hopen hne, hturned⟩
  obtain ⟨ticket, call, stage⟩ := v
  cases stage with
  | entered =>
    simp only [Interleaving.advance, setStage, hset, Store.repository]
    refine ⟨⟨s, hguarded.restage hvisits rfl _ _⟩, ?_, hturned⟩
    rw [hvisits] at hreplays
    exact hreplays.restage rfl rfl rfl
  | read found =>
    obtain rfl : found = m.store.read call := hagrees
    rcases hdecide : call.decide (m.store.read call) with a | ⟨r, success, failure⟩
    · have hkept := hsettle rfl
      rw [Coordinator.call_of_decide_answer hlock hdecide] at hkept
      simpa only [Interleaving.advance, hdecide, setStage, hset] using hkept
    · simp only [Interleaving.advance, hdecide, setStage, hset]
      refine ⟨⟨s, hguarded.restage hvisits rfl _ _⟩, ?_, hturned⟩
      rw [hvisits] at hreplays
      exact hreplays.restage hdecide rfl rfl
  | writing r success failure =>
    obtain ⟨-, ⟨r₀, hget⟩, hcall⟩ := Coordinator.call_of_decide_write hfiled hlock hagrees
    have hkept := hsettle rfl
    rw [hcall] at hkept
    simpa only [Interleaving.advance, setStage, hset, Store.repository, Store.buffer_eq hget,
      Answer.ofWrite] using hkept
  | settled a =>
    simp only [Interleaving.advance, setStage, hset]
    refine ⟨⟨_, hguarded.leave hfair hvisits a⟩, ?_, hturned⟩
    rw [hvisits] at hreplays
    exact hreplays.restage trivial rfl rfl
  | left a => exact ⟨⟨s, hguarded⟩, hreplays, hturned⟩

lemma step (h : Kept queue s₀ m) (hfair : Mutex.Fair queue) (e : Move) :
    Kept queue s₀ (m.step e) := by
  obtain ⟨⟨s, hguarded⟩, hreplays, hturned⟩ := h
  cases e with
  | start c =>
    rcases hlock : c.takesLock
    · obtain ⟨a, ha⟩ := Coordinator.call_of_not_takesLock (α := α) hlock
      simp only [Interleaving.step, hlock, Bool.false_eq_true, if_false, ha]
      refine ⟨⟨s, hguarded.sound, hguarded.follows, hguarded.waiting, hguarded.held,
        hguarded.tickets, hguarded.apart, hguarded.old⟩, hreplays, ?_⟩
      rw [List.forall_mem_append, List.forall_mem_singleton]
      exact ⟨hturned, ha Store.repository⟩
    · simp only [Interleaving.step, hlock, if_true]
      exact ⟨⟨_, hguarded.create hlock⟩, hreplays, hturned⟩
  | poll ticket =>
    simp only [Interleaving.step]
    split
    · exact ⟨⟨s, hguarded⟩, hreplays, hturned⟩
    · rename_i ticket' c hfind
      obtain rfl : ticket' = ticket := by simpa using List.find?_some hfind
      have hpolled := hguarded.poll hfair ticket'
      have hw := List.mem_of_find?_eq_some hfind
      split
      · rename_i hgrants
        have hentered := hpolled.enter hw hgrants
        refine ⟨⟨_, hentered⟩, hreplays.enter (hguarded.waiting _ hw).2 fun v hv hopen => ?_,
          hturned⟩
        obtain ⟨-, -, hnew⟩ := List.pairwise_append.mp hentered.exclusive
        exact hnew v hv _ (List.mem_singleton_self _) (Visit.isInside_of_isOpen hopen) rfl
      · exact ⟨⟨_, hpolled⟩, hreplays, hturned⟩
  | cancel ticket =>
    simp only [Interleaving.step]
    split
    · exact ⟨⟨s, hguarded⟩, hreplays, hturned⟩
    · rename_i w hfind
      obtain rfl : w.1 = ticket := by simpa using List.find?_some hfind
      exact ⟨⟨_, hguarded.cancel hfair (List.mem_of_find?_eq_some hfind)⟩, hreplays, hturned⟩
  | advance i =>
    simp only [Interleaving.step]
    split
    · exact ⟨⟨s, hguarded⟩, hreplays, hturned⟩
    · rename_i v hv
      exact advance ⟨⟨s, hguarded⟩, hreplays, hturned⟩ hfair hv

end Kept

lemma kept_after (hfair : Mutex.Fair queue) (hash : RunId → Nat) (shards : Nat) (hs : s₀.Filed)
    (moves : List Move) : Kept queue s₀ ((start hash shards s₀).after moves) := by
  induction moves using List.reverseRecOn with
  | nil =>
    refine ⟨⟨.start, Arrivals.sound_start, RunLocks.follows_ofHash hash shards, ?_, ?_, ?_, ?_, ?_⟩,
      .nil hs, ?_⟩ <;> simp [after, start]
  | append_singleton moves e ih =>
    rw [after_append_singleton]
    exact ih.step hfair e

/-- What happens to overlapping calls is what happens to calls that are answered one after the
other. -/
structure Serialised (s₀ : Store α) (m : Interleaving M α) : Prop where
  /-- A call that has answered has the answer that it gets if all calls that got their locks are
  answered one after the other, in the order in which they got them. -/
  answers : ∀ (i : Nat) (v : Visit α) (a : Answer α), m.visits[i]? = some v → v.stage = .left a →
    (Coordinator.trace Store.repository s₀ (m.visits.map (·.call)))[i]?.map (·.answer) = some a
  /-- The store is what these calls leave, but for those that have not answered. -/
  ahead : Coordinator.after Store.repository m.store (openCalls m.visits) =
    Coordinator.after Store.repository s₀ (m.visits.map (·.call))
  /-- Once all have their answers, it is exactly that. -/
  final : (∀ v ∈ m.visits, v.isOpen = false) →
    m.store = Coordinator.after Store.repository s₀ (m.visits.map (·.call))
  /-- A call that takes no lock gets its answer whatever is stored, and changes nothing, so it may
  be placed anywhere. -/
  turnedAway : ∀ w ∈ m.turnedAway, ∀ s : Store α,
    Coordinator.call Store.repository s w.1 = (w.2, s)

/-- However calls overlap, and whichever of them are given up while they wait, the calls that got
their locks are serialised in the order in which they got them. -/
theorem overlapping_calls_serialised (hfair : Mutex.Fair queue) (hash : RunId → Nat) (shards : Nat)
    (hs : s₀.Filed) (moves : List Move) :
    Serialised s₀ ((start hash shards s₀ : Interleaving M α).after moves) := by
  obtain ⟨-, hreplays, hturned⟩ := kept_after hfair hash shards hs moves
  refine ⟨?_, hreplays.store.symm, ?_, hturned⟩
  · intro i v a hv hstage
    have hanswers := congrArg (·[i]?) hreplays.answers
    simp only [List.getElem?_map, hv, Option.map_some] at hanswers
    rw [hanswers, Visit.answer, hstage]
  · intro hanswered
    have hopen : openCalls ((start hash shards s₀ : Interleaving M α).after moves).visits = [] := by
      rw [openCalls, List.map_eq_nil_iff, List.filter_eq_nil_iff]
      intro v hv
      simp [hanswered v hv]
    rw [hreplays.store, hopen, Coordinator.after_nil]

/-- While a report that answers no perturbation is inside, a call for the state waits for its lock,
another one gives up, and a replica turns the report away. -/
theorem overlapping_calls_serialised_small :
    let report : Report := ⟨4, 1, 1, 6, none⟩
    let m : Interleaving FairMutex Float := (start RunId.value 1 Store.small).after
      [.start (.report true ⟨1⟩ 0 report), .start (.state ⟨1⟩), .start (.state ⟨1⟩), .poll 0,
        .advance 0, .poll 1, .cancel 2, .advance 0, .start (.report false ⟨1⟩ 0 report), .poll 1,
        .advance 0, .poll 1, .advance 1, .advance 1, .advance 1]
    Mutex.Fair FairMutex.queue ∧ Store.small.Filed ∧ Serialised Store.small m ∧
      m.visits.map (·.ticket) = [0, 1] ∧ m.turnedAway.length = 1 ∧
      m.store = Coordinator.after Store.repository Store.small (m.visits.map (·.call)) := by
  intro report m
  have hserialised : Serialised Store.small m :=
    overlapping_calls_serialised FairMutex.fair RunId.value 1 Store.filed_small _
  exact ⟨FairMutex.fair, Store.filed_small, hserialised, by decide +kernel, by decide +kernel,
    hserialised.final (by decide +kernel)⟩

end Interleaving

end PairedTuning
