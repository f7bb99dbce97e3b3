import Mathlib
import PairedTuning.Proofs.Coordinator.Phases
import PairedTuning.Proofs.Store.Separation

/-!
# Runs do not interfere

All runs share one repository, one cache and one table of locks. Still a call sees and changes
nothing but the view of its own run, and so the calls on a run are answered as if there were no
others: they may be left out, and others put in, without any effect on what is seen of that run.
-/

namespace PairedTuning

variable {σ α V : Type} [Scalar α]

/-! ### Single calls -/

namespace Repository.Separated

variable {repo : Repository σ α} {Valid : σ → Prop} {view : RunId → σ → V}
variable (h : repo.Separated Valid view)

include h

lemma call_valid {s : σ} (hs : Valid s) (c : Call) : Valid (Coordinator.call repo s c).2 := by
  rcases hlock : c.takesLock
  · obtain ⟨a, ha⟩ := Coordinator.call_of_not_takesLock (α := α) hlock
    rw [ha]
    exact hs
  · have hread := h.get_valid hs c.run
    rw [Coordinator.call_eq_phases repo s hlock]
    rcases c.decide (repo.get s c.run).1 with a | ⟨r, success, failure⟩
    · exact hread
    · exact h.buffer_valid hread r

/-- A call writes back no run but its own. -/
lemma id_of_decide_write {s : σ} (hs : Valid s) {c : Call} {r : Run α} {success failure : Answer α}
    (hdecide : c.decide (repo.get s c.run).1 = .write r success failure) : r.id = c.run := by
  obtain ⟨r₀, hread, hid⟩ := Call.id_of_decide_write hdecide
  exact hid.trans (h.get_filed hs hread)

/-- A call is answered from the view of its run, and changes it by itself. -/
lemma call_own {s s' : σ} (hs : Valid s) {c : Call} (hview : view c.run s = view c.run s') :
    (Coordinator.call repo s c).1 = (Coordinator.call repo s' c).1 ∧
      view c.run (Coordinator.call repo s c).2 = view c.run (Coordinator.call repo s' c).2 := by
  rcases hlock : c.takesLock
  · obtain ⟨a, ha⟩ := Coordinator.call_of_not_takesLock (α := α) hlock
    rw [ha, ha]
    exact ⟨rfl, hview⟩
  · obtain ⟨hread, hafter⟩ := h.get_own hview
    rw [Coordinator.call_eq_phases repo s hlock, Coordinator.call_eq_phases repo s' hlock, ← hread]
    rcases hdecide : c.decide (repo.get s c.run).1 with a | ⟨r, success, failure⟩
    · exact ⟨rfl, hafter⟩
    · have hid := h.id_of_decide_write hs hdecide
      rw [← hid] at hafter ⊢
      obtain ⟨hwritten, hview⟩ := h.buffer_own hafter
      exact ⟨congrArg (Answer.ofWrite success failure) hwritten, hview⟩

/-- A call leaves the views of all other runs as they are. -/
lemma call_other {s : σ} (hs : Valid s) {c : Call} {other : RunId} (hne : other ≠ c.run) :
    view other (Coordinator.call repo s c).2 = view other s := by
  rcases hlock : c.takesLock
  · obtain ⟨a, ha⟩ := Coordinator.call_of_not_takesLock (α := α) hlock
    rw [ha]
  · have hread := h.get_other s hne
    rw [Coordinator.call_eq_phases repo s hlock]
    rcases hdecide : c.decide (repo.get s c.run).1 with a | ⟨r, success, failure⟩
    · exact hread
    · have hid := h.id_of_decide_write hs hdecide
      exact (h.buffer_other _ (hid.symm ▸ hne)).trans hread

end Repository.Separated

/-! ### Sequences of calls -/

namespace Session

variable (repo : Repository σ α) (view : RunId → σ → V)

/-- The session after a sequence of calls. -/
def after (s : Session σ) (calls : List Call) : Session σ :=
  calls.foldl (fun s c => (s.call repo c).2) s

/-- What a sequence of calls shows of a run: the answer to every call on it, with the view of the
run after that call. -/
def observe (id : RunId) : Session σ → List Call → List (Answer α × V)
  | _, [] => []
  | s, c :: calls =>
    let (a, next) := s.call repo c
    if c.run = id then (a, view id next.store) :: observe id next calls
    else observe id next calls

/-- The locks have no part in the answer to a call and in what it does to the store. -/
lemma call_eq (s : Session σ) (c : Call) :
    (s.call repo c).1 = (Coordinator.call repo s.store c).1 ∧
      (s.call repo c).2.store = (Coordinator.call repo s.store c).2 := by
  unfold call
  split <;> exact ⟨rfl, rfl⟩

/-- The calls on a run show the same of it without the calls on all other runs; and the calls on the
run may be exchanged for any others without an effect on the other runs. -/
structure Isolated (s : Session σ) (id : RunId) (calls : List Call) : Prop where
  own : observe repo view id s calls = observe repo view id s (calls.filter (·.run = id))
  others : ∀ exchanged : List Call,
    exchanged.filter (·.run ≠ id) = calls.filter (·.run ≠ id) → ∀ other ≠ id,
      view other (s.after repo exchanged).store = view other (s.after repo calls).store

variable {repo view} {Valid : σ → Prop} (h : repo.Separated Valid view)

include h

lemma call_valid {s : Session σ} (hs : Valid s.store) (c : Call) :
    Valid (s.call repo c).2.store := by
  rw [(s.call_eq repo c).2]
  exact h.call_valid hs c

lemma call_own {s s' : Session σ} (hs : Valid s.store) {c : Call}
    (hview : view c.run s.store = view c.run s'.store) :
    (s.call repo c).1 = (s'.call repo c).1 ∧
      view c.run (s.call repo c).2.store = view c.run (s'.call repo c).2.store := by
  rw [(s.call_eq repo c).1, (s.call_eq repo c).2, (s'.call_eq repo c).1, (s'.call_eq repo c).2]
  exact h.call_own hs hview

lemma call_other {s : Session σ} (hs : Valid s.store) {c : Call} {other : RunId}
    (hne : other ≠ c.run) : view other (s.call repo c).2.store = view other s.store := by
  rw [(s.call_eq repo c).2]
  exact h.call_other hs hne

/-- Two sessions that agree on a run go on to do so, also if one of them leaves the calls on other
runs out. -/
lemma observe_filter {s s' : Session σ} (hs : Valid s.store) (hs' : Valid s'.store) {id : RunId}
    (hview : view id s.store = view id s'.store) (calls : List Call) :
    observe repo view id s calls = observe repo view id s' (calls.filter (·.run = id)) ∧
      view id (s.after repo calls).store =
        view id (s'.after repo (calls.filter (·.run = id))).store := by
  induction calls generalizing s s' with
  | nil => exact ⟨rfl, hview⟩
  | cons c calls ih =>
    have hnext := call_valid h hs c
    by_cases hrun : c.run = id
    · subst hrun
      obtain ⟨hanswer, hafter⟩ := call_own h hs hview
      obtain ⟨hobserve, hend⟩ := ih hnext (call_valid h hs' c) hafter
      rw [List.filter_cons_of_pos (by simp)]
      refine ⟨?_, hend⟩
      simp only [observe, if_true, hanswer, hafter, hobserve]
    · have hsame := (call_other h hs (Ne.symm hrun)).trans hview
      obtain ⟨hobserve, hend⟩ := ih hnext hs' hsame
      rw [List.filter_cons_of_neg (by simpa using hrun)]
      refine ⟨?_, hend⟩
      simp only [observe, if_neg hrun, hobserve]

lemma view_after_filter {s : Session σ} (hs : Valid s.store) (id : RunId) (calls : List Call) :
    view id (s.after repo calls).store =
      view id (s.after repo (calls.filter (·.run = id))).store :=
  (observe_filter h hs hs rfl calls).2

lemma isolated {s : Session σ} (hs : Valid s.store) (id : RunId) (calls : List Call) :
    s.Isolated repo view id calls where
  own := (observe_filter h hs hs rfl calls).1
  others exchanged hexchanged other hne := by
    have hfilter (cs : List Call) :
        (cs.filter (·.run ≠ id)).filter (·.run = other) = cs.filter (·.run = other) := by
      rw [List.filter_filter]
      refine List.filter_congr fun c _ => ?_
      by_cases hrun : c.run = other <;> simp [hrun, hne]
    calc
      _ = view other (s.after repo (exchanged.filter (·.run = other))).store :=
        view_after_filter h hs other exchanged
      _ = view other (s.after repo (calls.filter (·.run = other))).store := by
        rw [← hfilter exchanged, hexchanged, hfilter calls]
      _ = _ := (view_after_filter h hs other calls).symm

end Session

/-! ### Stores and caches -/

/-- Runs do not interfere, on a plain store and behind a cache in which nothing expires, whatever
copies it starts with. Behind the cache the view of a run is the stored run with its copy. -/
theorem runs_isolated {s : Store α} (hs : s.Filed) {copies : RunTable (Run α)}
    (hcopies : (Cached.mk s copies).CopiesFiled) (locks : LockTable) (id : RunId)
    (calls : List Call) :
    Session.Isolated Store.repository Store.view ⟨s, locks⟩ id calls ∧
      Session.Isolated (Cached.repository Store.repository) (Cached.view Store.view)
        ⟨⟨s, copies⟩, locks⟩ id calls := by
  constructor
  · exact Session.isolated Store.separated hs id calls
  · exact Session.isolated (Cached.separated Store.separated) ⟨hs, hcopies⟩ id calls

/-- The small run and another one are called in turns, with a copy of the small run in the cache. -/
theorem runs_isolated_small :
    let other : Run Float := { Run.small with id := ⟨2⟩ }
    let s := Store.small.insert other
    let copies := RunTable.empty.insert ⟨1⟩ Run.small
    let calls : List Call :=
      [.request true ⟨1⟩ 0 fun _ => .plus, .request true ⟨2⟩ 0 fun _ => .minus,
        .report true ⟨1⟩ 0 ⟨4, 1, 1, 6, none⟩, .report true ⟨2⟩ 0 ⟨0, 3, 1, 4, none⟩, .state ⟨1⟩]
    s.Filed ∧ (Cached.mk s copies).CopiesFiled ∧
      Session.Isolated Store.repository Store.view ⟨s, .ofShards 16⟩ ⟨1⟩ calls ∧
      Session.Isolated (Cached.repository Store.repository) (Cached.view Store.view)
        ⟨⟨s, copies⟩, .ofShards 16⟩ ⟨1⟩ calls := by
  intro other s copies calls
  have hs : s.Filed := Store.filed_small.insert other
  have hcopies : (Cached.mk s copies).CopiesFiled :=
    Cached.copiesFiled_keep (s := ⟨s, .empty⟩) (fun _ _ hcopy => by cases hcopy) Run.small
  exact ⟨hs, hcopies, runs_isolated hs hcopies (.ofShards 16) ⟨1⟩ calls⟩

end PairedTuning
