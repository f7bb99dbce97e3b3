import Mathlib
import PairedTuning.Proofs.Coordinator.Effect
import PairedTuning.Proofs.Scalar.Counter

/-!
# Sequences of calls

Calls that are answered one after the other leave a store (`after`) and a trace: one entry for each
call, with the store that it found and the answer that it got.

Seen from one run, a call does nothing, issues a perturbation to a task, or consumes one. These are
the cases of `RunStep`; `exists_run_after` carries whatever a step keeps to the end of a sequence.
-/

namespace PairedTuning

variable {σ α : Type}

/-! ### Entries -/

/-- One call of a sequence, with the store that it found and the answer that it got. -/
structure Entry (σ α : Type) where
  before : σ
  call : Call
  answer : Answer α

namespace Entry

/-- Whether the call has issued a perturbation to a task. -/
def issues (id : RunId) (task : Nat) (e : Entry σ α) : Bool :=
  match e.call, e.answer with
  | .request _ run t _, .request (.issued _ _) => run = id && t = task
  | _, _ => false

/-- Whether the call has used up the perturbation of a task. -/
def consumes (id : RunId) (task : Nat) (e : Entry σ α) : Bool :=
  match e.call, e.answer with
  | .report _ run t _, .report outcome => run = id && t = task && outcome.consumes
  | _, _ => false

/-- Whether the call has put a perturbation into the slot of a task or taken one from it. -/
def touches (id : RunId) (task : Nat) (e : Entry σ α) : Bool :=
  e.issues id task || e.consumes id task

/-- The number of pairs that the call has added to the counter of a run. -/
def appliedPairs (id : RunId) (e : Entry σ α) : Nat :=
  match e.call, e.answer with
  | .report _ run _ report, .report (.applied _) => if run = id then report.pairs else 0
  | _, _ => 0

lemma appliedPairs_of_not_touches {id : RunId} {e : Entry σ α}
    (h : ∀ task, e.touches id task = false) : e.appliedPairs id = 0 := by
  unfold appliedPairs
  split
  · rename_i run task report k hcall hanswer
    have hrun : run ≠ id := by
      rintro rfl
      simpa [touches, consumes, Outcome.consumes, hcall, hanswer] using h task
    simp [hrun]
  · rfl

lemma touches_of_applied {id : RunId} {e : Entry σ α} {primary : Bool} {task : Nat}
    {report : Report} {k : Nat} (hcall : e.call = .report primary id task report)
    (hanswer : e.answer = .report (.applied k)) : e.touches id task := by
  simp [touches, consumes, Outcome.consumes, hcall, hanswer]

end Entry

/-- The number of pairs that the calls of a trace have added to the counter of a run. -/
def appliedPairs (id : RunId) (H : List (Entry σ α)) : Nat := (H.map (·.appliedPairs id)).sum

@[simp] lemma appliedPairs_append_singleton (id : RunId) (H : List (Entry σ α)) (e : Entry σ α) :
    appliedPairs id (H ++ [e]) = appliedPairs id H + e.appliedPairs id := by
  simp [appliedPairs]

variable [Scalar α]

/-! ### Traces -/

namespace Coordinator

/-- The store after a sequence of calls. -/
def after (repo : Repository σ α) (s : σ) (calls : List Call) : σ :=
  calls.foldl (fun s c => (call repo s c).2) s

/-- The entries of a sequence of calls. -/
def trace (repo : Repository σ α) : σ → List Call → List (Entry σ α)
  | _, [] => []
  | s, c :: calls => ⟨s, c, (call repo s c).1⟩ :: trace repo (call repo s c).2 calls

variable (repo : Repository σ α)

@[simp] lemma after_nil (s : σ) : after repo s [] = s := rfl

@[simp] lemma after_cons (s : σ) (c : Call) (calls : List Call) :
    after repo s (c :: calls) = after repo (call repo s c).2 calls := rfl

lemma after_append (s : σ) (calls more : List Call) :
    after repo s (calls ++ more) = after repo (after repo s calls) more :=
  List.foldl_append

@[simp] lemma trace_nil (s : σ) : trace repo s [] = [] := rfl

@[simp] lemma trace_cons (s : σ) (c : Call) (calls : List Call) :
    trace repo s (c :: calls) =
      ⟨s, c, (call repo s c).1⟩ :: trace repo (call repo s c).2 calls := rfl

/-- An entry of a trace is the next entry after the calls of those before it. -/
lemma trace_eq_append_cons {s : σ} {calls : List Call} {pre post : List (Entry σ α)}
    {e : Entry σ α} (h : trace repo s calls = pre ++ e :: post) :
    ∃ earlier later, calls = earlier ++ e.call :: later ∧ pre = trace repo s earlier ∧
      e.before = after repo s earlier ∧ e.answer = (call repo (after repo s earlier) e.call).1 ∧
      post = trace repo (call repo (after repo s earlier) e.call).2 later := by
  induction calls generalizing s pre with
  | nil => simp at h
  | cons c calls ih =>
    cases pre with
    | nil =>
      simp only [trace_cons, List.nil_append, List.cons.injEq] at h
      obtain ⟨rfl, rfl⟩ := h
      exact ⟨[], calls, rfl, rfl, rfl, rfl, rfl⟩
    | cons e' pre =>
      simp only [trace_cons, List.cons_append, List.cons.injEq] at h
      obtain ⟨rfl, h⟩ := h
      obtain ⟨earlier, later, rfl, rfl, hbefore, hanswer, hpost⟩ := ih h
      exact ⟨c :: earlier, later, rfl, rfl, hbefore, hanswer, hpost⟩

end Coordinator

/-! ### Steps of one run -/

/-- What the call of an entry has made of a run. -/
inductive RunStep (id : RunId) (r : Run α) : Entry (Store α) α → Run α → Prop where
  | idle {e : Entry (Store α) α} (hidle : ∀ task, e.touches id task = false) : RunStep id r e r
  | issued {before : Store α} {task : Nat} {draw : Nat → Flip} {r' : Run α} {p : Perturbation α}
      {signature : UInt32} (hissue : r.issue task draw = .ok (r', p, signature)) :
      RunStep id r ⟨before, .request true id task draw, .request (.issued p signature)⟩ r'
  | consumed {before : Store α} {task : Nat} {report : Report} {r' : Run α} {outcome : Outcome}
      (halive : r.isAlive) (hconsumed : r.Consumed task report r' outcome) :
      RunStep id r ⟨before, .report true id task report, .report outcome⟩ r'

lemma CallEffect.runStep {s s' : Store α} {c : Call} {a : Answer α} (h : CallEffect s c a s')
    (hs : s.Filed) {id : RunId} {r : Run α} (hget : s.runs.get? id = some r) :
    ∃ r', s'.runs.get? id = some r' ∧ RunStep id r ⟨s, c, a⟩ r' := by
  cases h with
  | refused => exact ⟨r, hget, .idle fun _ => rfl⟩
  | @issued run _ _ r₁ r' _ _ hget₁ hissue =>
    have hid : r'.id = run := (Run.id_of_issue hissue).trans (hs run r₁ hget₁)
    by_cases h : run = id
    · subst h
      cases hget.symm.trans hget₁
      exact ⟨r', hid ▸ s.get?_write_self r', .issued hissue⟩
    · refine ⟨r, (s.get?_write_ne fun h' => h ?_).trans hget, .idle fun _ => ?_⟩
      · rw [h', hid]
      · simp [Entry.touches, Entry.issues, Entry.consumes, h]
  | rejected hrejected =>
    exact ⟨r, hget, .idle fun _ => by simp [Entry.touches, Entry.issues, Entry.consumes, hrejected]⟩
  | @consumed run _ _ r₁ r' _ hget₁ halive hconsumed =>
    have hid : r'.id = run := hconsumed.id_eq.trans (hs run r₁ hget₁)
    by_cases h : run = id
    · subst h
      cases hget.symm.trans hget₁
      exact ⟨r', hid ▸ s.get?_write_self r', .consumed halive hconsumed⟩
    · refine ⟨r, (s.get?_write_ne fun h' => h ?_).trans hget, .idle fun _ => ?_⟩
      · rw [h', hid]
      · simp [Entry.touches, Entry.issues, Entry.consumes, h]
  | state => exact ⟨r, hget, .idle fun _ => rfl⟩

namespace RunStep

variable {id : RunId} {r r' : Run α} {e : Entry (Store α) α}

lemma games_eq (h : RunStep id r e r') : r'.games = r.games := by
  cases h with
  | idle => rfl
  | issued hissue =>
    obtain ⟨-, -, -, -, -, rfl⟩ := Run.issue_eq_ok_iff.mp hissue
    rfl
  | consumed _ hconsumed => cases hconsumed <;> rfl

/-- The counter of the run goes on counting the pairs of the reports that are applied. -/
lemma counts (h : RunStep id r e r') {n : Nat} {H : List (Entry (Store α) α)}
    (hcounts : Scalar.Counts α (n + appliedPairs id H) r.state.iter) :
    Scalar.Counts α (n + appliedPairs id (H ++ [e])) r'.state.iter := by
  rw [appliedPairs_append_singleton, ← Nat.add_assoc]
  cases h with
  | idle hidle =>
    rw [Entry.appliedPairs_of_not_touches hidle]
    exact hcounts
  | issued hissue =>
    obtain ⟨-, -, -, -, -, rfl⟩ := Run.issue_eq_ok_iff.mp hissue
    exact hcounts
  | consumed _ hconsumed =>
    cases hconsumed with
    | mismatch => exact hcounts
    | empty => exact hcounts
    | @applied issued _ _ hpairs =>
      simp only [Run.applyReport, Entry.appliedPairs, if_true]
      rw [TuningState.apply_iter_of_ne_zero _ _ _ _ hpairs]
      exact hcounts.add _

lemma applied_eq (h : RunStep id r e r') {primary : Bool} {task : Nat} {report : Report} {k : Nat}
    (hcall : e.call = .report primary id task report)
    (hanswer : e.answer = .report (.applied k)) :
    k = Scalar.count α (r.state.iter + e.appliedPairs id) := by
  cases h with
  | idle hidle =>
    have htouches := Entry.touches_of_applied hcall hanswer
    simp [hidle task] at htouches
  | issued => cases hcall
  | consumed _ hconsumed =>
    cases hconsumed with
    | mismatch => cases hanswer
    | empty => cases hanswer
    | applied =>
      cases hanswer
      simp [Entry.appliedPairs]

end RunStep

/-! ### Steps of a sequence -/

namespace Coordinator

lemma filed_after {s : Store α} (hs : s.Filed) (calls : List Call) :
    (after Store.repository s calls).Filed := by
  induction calls generalizing s with
  | nil => exact hs
  | cons c calls ih => exact ih ((CallEffect.of_call hs c).filed hs)

/-- A property of a trace and a run that every step of the run keeps holds after every sequence of
calls. -/
theorem exists_run_after (Inv : List (Entry (Store α) α) → Run α → Prop) {id : RunId}
    (hstep : ∀ {H r e r'}, Inv H r → e.before.runs.get? id = some r → RunStep id r e r' →
      Inv (H ++ [e]) r')
    {s : Store α} (hs : s.Filed) {r : Run α} (hget : s.runs.get? id = some r) (hinv : Inv [] r)
    (calls : List Call) :
    ∃ r', (after Store.repository s calls).runs.get? id = some r' ∧
      Inv (trace Store.repository s calls) r' := by
  suffices h : ∀ H s r, s.Filed → s.runs.get? id = some r → Inv H r →
      ∃ r', (after Store.repository s calls).runs.get? id = some r' ∧
        Inv (H ++ trace Store.repository s calls) r' from h [] s r hs hget hinv
  induction calls with
  | nil =>
    intro H s r _ hget hinv
    exact ⟨r, hget, by simpa using hinv⟩
  | cons c calls ih =>
    intro H s r hs hget hinv
    have heffect := CallEffect.of_call hs c
    obtain ⟨r₁, hget₁, hrun⟩ := heffect.runStep hs hget
    obtain ⟨r', hget', hinv'⟩ := ih _ _ r₁ (heffect.filed hs) hget₁ (hstep hinv hget hrun)
    exact ⟨r', hget', by simpa using hinv'⟩

/-- Every entry of a trace is a step of the run from where the entries before it have left it. -/
theorem exists_runStep_of_trace (Inv : List (Entry (Store α) α) → Run α → Prop) {id : RunId}
    (hstep : ∀ {H r e r'}, Inv H r → e.before.runs.get? id = some r → RunStep id r e r' →
      Inv (H ++ [e]) r')
    {s : Store α} (hs : s.Filed) {r : Run α} (hget : s.runs.get? id = some r) (hinv : Inv [] r)
    {calls : List Call} {pre post : List (Entry (Store α) α)} {e : Entry (Store α) α}
    (h : trace Store.repository s calls = pre ++ e :: post) :
    ∃ r₁ r₂, Inv pre r₁ ∧ e.before.runs.get? id = some r₁ ∧ RunStep id r₁ e r₂ ∧
      e.answer = (call Store.repository e.before e.call).1 := by
  obtain ⟨earlier, later, -, rfl, hbefore, hanswer, -⟩ := trace_eq_append_cons _ h
  obtain ⟨r₁, hget₁, hinv₁⟩ := exists_run_after Inv hstep hs hget hinv earlier
  have heffect := CallEffect.of_call (filed_after hs earlier) e.call
  obtain ⟨r₂, -, hrun⟩ := heffect.runStep (filed_after hs earlier) hget₁
  rw [← hbefore] at hget₁ hanswer hrun
  rw [← hanswer] at hrun
  exact ⟨r₁, r₂, hinv₁, hget₁, hrun, hanswer⟩

/-- After a sequence of calls the counter of a run has counted the pairs of its applied reports. -/
lemma counts_after {s : Store α} (hs : s.Filed) {id : RunId} {r r' : Run α}
    (hget : s.runs.get? id = some r) {calls : List Call}
    (hget' : (after Store.repository s calls).runs.get? id = some r') :
    Scalar.Counts α (r.state.iter + appliedPairs id (trace Store.repository s calls))
      r'.state.iter := by
  obtain ⟨r₁, hget₁, hcounts⟩ := exists_run_after
    (fun H r' => Scalar.Counts α (r.state.iter + appliedPairs id H) r'.state.iter)
    (fun h _ hstep => hstep.counts h) hs hget (.refl _) calls
  obtain rfl := Option.some_injective _ (hget'.symm.trans hget₁)
  exact hcounts

/-- A call finds a counter that is not above the one in the end, if no count passes the bound of
counters. -/
lemma iter_le_of_trace {s : Store α} (hs : s.Filed) {id : RunId} {r before r' : Run α}
    (hget : s.runs.get? id = some r) {calls : List Call} {e : Entry (Store α) α}
    (he : e ∈ trace Store.repository s calls) (hbefore : e.before.runs.get? id = some before)
    (hget' : (after Store.repository s calls).runs.get? id = some r')
    (hfits : Scalar.FitsCounter α
      (r.state.iter + appliedPairs id (trace Store.repository s calls))) :
    before.state.iter ≤ r'.state.iter := by
  have hcounts' := counts_after hs hget hget'
  obtain ⟨pre, post, htrace⟩ := List.append_of_mem he
  obtain ⟨earlier, -, -, rfl, hearlier, -, -⟩ := trace_eq_append_cons _ htrace
  have hcounts := counts_after hs hget (hearlier ▸ hbefore)
  have hle : appliedPairs id (trace Store.repository s earlier) ≤
      appliedPairs id (trace Store.repository s calls) := by
    rw [htrace]
    simp [appliedPairs]
  rw [hcounts.eq_of_fits (hfits.mono (Nat.add_le_add_left hle _)), hcounts'.eq_of_fits hfits]
  exact Nat.add_le_add_left hle _

end Coordinator

/-! ### A small run -/

/-- A run of one parameter that two workers share. -/
def Run.small : Run Float :=
  let p : Parameter Float :=
    { name := "margin", start := 5, low := 0, high := 10, theta := 5, c := 2, cEnd := 2, rEnd := 0
      a := 0, z := 5, v := 0 }
  let state : TuningState Float :=
    { optimizer := .scheduleFreeSgd 0.5 0.5, iter := 0, plannedPairs := 10, mass := 0
      moments := .empty 1, params := [p], history := [] }
  ((Run.create ⟨1⟩ 20 state).addTask "first").addTask "second"

/-- A store that has just the small run. -/
def Store.small : Store Float := Store.empty.insert Run.small

lemma Store.filed_small : Store.small.Filed := Store.filed_empty.insert Run.small

lemma Store.get?_small : Store.small.runs.get? ⟨1⟩ = some Run.small := rfl

lemma Run.pending_small : ∀ t ∈ Run.small.tasks, t.pending = none := by
  simp [Run.small, Run.addTask, Run.create]

/-- Both workers of the small run play a batch. The reports come back in the other order, and one of
them twice. -/
def Coordinator.twoBatches : List Call :=
  let won : Report := ⟨4, 1, 1, 6, some (Checksum.ofBytes (Flip.pack [.plus]))⟩
  let lost : Report := ⟨0, 3, 1, 4, some (Checksum.ofBytes (Flip.pack [.minus]))⟩
  [.request true ⟨1⟩ 0 fun _ => .plus, .request true ⟨1⟩ 1 fun _ => .minus,
    .report true ⟨1⟩ 1 lost, .report true ⟨1⟩ 0 won, .report true ⟨1⟩ 1 lost, .state ⟨1⟩]

end PairedTuning
