import Mathlib
import PairedTuning.Proofs.Coordinator.Rounds

/-!
# Every perturbation is consumed at most once

The slot of a task follows from the trace: of the calls that touch it, the latest decides. If that
was a request, the slot holds what the request was answered; if it was a report, the slot is empty.
`Slots` keeps this along every sequence of calls, and the rest is read off it: a perturbation is
used up once, the reports after that change nothing, and a newer request leaves nothing of an older
one.

The counter in a slot is not above that of the run, unless the counter has passed its bound.
-/

namespace PairedTuning

variable {σ α : Type}

/-! ### The latest call that touched a slot -/

namespace Entry

lemma not_consumes_of_issues {id : RunId} {task : Nat} {e : Entry σ α} (h : e.issues id task) :
    e.consumes id task = false := by
  unfold issues at h
  split at h
  · rename_i hcall hanswer
    simp [consumes, hcall]
  · cases h

end Entry

/-- The latest call that has filled or emptied the slot of a task. -/
def latest (id : RunId) (task : Nat) (H : List (Entry σ α)) : Option (Entry σ α) :=
  (H.filter (·.touches id task)).getLast?

lemma latest_append_of_touches {id : RunId} {task : Nat} {e : Entry σ α}
    (h : e.touches id task) (H : List (Entry σ α)) : latest id task (H ++ [e]) = some e := by
  simp [latest, h]

lemma latest_append_of_not_touches {id : RunId} {task : Nat} {e : Entry σ α}
    (h : e.touches id task = false) (H : List (Entry σ α)) :
    latest id task (H ++ [e]) = latest id task H := by
  simp [latest, h]

lemma mem_of_latest {id : RunId} {task : Nat} {H : List (Entry σ α)} {e : Entry σ α}
    (h : latest id task H = some e) : e ∈ H :=
  List.mem_of_mem_filter (List.mem_of_getLast? h)

/-- As long as no request follows, the latest call that touched a slot is one that emptied it. -/
lemma latest_consumes {id : RunId} {task : Nat} (pre : List (Entry σ α))
    {mid : List (Entry σ α)} {a : Entry σ α} (ha : a.consumes id task)
    (hmid : ∀ e ∈ mid, e.issues id task = false) :
    ∃ e, latest id task (pre ++ a :: mid) = some e ∧ e.consumes id task := by
  induction mid using List.reverseRecOn with
  | nil => exact ⟨a, latest_append_of_touches (by simp [Entry.touches, ha]) pre, ha⟩
  | append_singleton mid e ih =>
    have hsplit : pre ++ a :: (mid ++ [e]) = (pre ++ a :: mid) ++ [e] := by simp
    have hissues : e.issues id task = false := hmid e (by simp)
    rw [hsplit]
    by_cases he : e.consumes id task
    · exact ⟨e, latest_append_of_touches (by simp [Entry.touches, he]) _, he⟩
    · rw [latest_append_of_not_touches (by simp [Entry.touches, hissues, he])]
      exact ih fun e' he' => hmid e' (List.mem_append_left _ he')

/-! ### The invariant -/

/-- What the latest call that touched it says about the slot of a task. -/
inductive Slot (id : RunId) (task : Nat) (r : Run α) : Option (Entry (Store α) α) → Prop where
  | untouched (hslot : r.pending? task = none) : Slot id task r none
  /-- The slot holds the counter of the run at the request, and the flips that were returned. -/
  | filled {e : Entry (Store α) α} {p : Perturbation α} {before : Run α}
      (hissues : e.issues id task)
      (hanswer : e.answer = .request (.issued p (Checksum.ofBytes (Flip.pack p.flips))))
      (hbefore : e.before.runs.get? id = some before)
      (hslot : r.pending? task = some ⟨before.state.iter, Flip.pack p.flips⟩) :
      Slot id task r (some e)
  | emptied {e : Entry (Store α) α} (hconsumes : e.consumes id task)
      (htask : task < r.tasks.length) (hslot : r.pending? task = none) : Slot id task r (some e)

/-- A live run all of whose slots are as the trace says. -/
structure Slots (id : RunId) (H : List (Entry (Store α) α)) (r : Run α) : Prop where
  alive : r.isAlive
  slot : ∀ task, Slot id task r (latest id task H)

namespace Slot

variable {id : RunId} {task : Nat} {r r' : Run α} {e : Entry (Store α) α}

/-- A step that leaves the slot alone leaves true what is said about it. -/
lemma congr {latest : Option (Entry (Store α) α)} (h : Slot id task r latest)
    (hslot : r'.pending? task = r.pending? task) (hlength : r'.tasks.length = r.tasks.length) :
    Slot id task r' latest := by
  cases h with
  | untouched hnone => exact .untouched (hslot.trans hnone)
  | filled hissues hanswer hbefore hsome =>
    exact .filled hissues hanswer hbefore (hslot.trans hsome)
  | emptied hconsumes htask hnone => exact .emptied hconsumes (hlength ▸ htask) (hslot.trans hnone)

lemma of_consumes (h : Slot id task r (some e)) (he : e.consumes id task) :
    r.pending? task = none ∧ task < r.tasks.length := by
  cases h with
  | filled hissues => simp [Entry.not_consumes_of_issues hissues] at he
  | emptied _ htask hslot => exact ⟨hslot, htask⟩

lemma of_issues (h : Slot id task r (some e)) (he : e.issues id task) :
    ∃ p signature before, e.answer = .request (.issued p signature) ∧
      e.before.runs.get? id = some before ∧
      r.pending? task = some ⟨before.state.iter, Flip.pack p.flips⟩ ∧
      Checksum.ofBytes (Flip.pack p.flips) = signature := by
  cases h with
  | filled _ hanswer hbefore hslot =>
    exact ⟨_, _, _, hanswer, hbefore, hslot, rfl⟩
  | emptied hconsumes => simp [Entry.not_consumes_of_issues he] at hconsumes

lemma exists_issues {latest : Option (Entry (Store α) α)} {issued : Pending}
    (h : Slot id task r latest) (hslot : r.pending? task = some issued) :
    ∃ e, latest = some e ∧ e.issues id task := by
  cases h with
  | untouched hnone => cases hnone.symm.trans hslot
  | filled hissues => exact ⟨_, rfl, hissues⟩
  | emptied _ _ hnone => cases hnone.symm.trans hslot

lemma isSome_iff {latest : Option (Entry (Store α) α)} (h : Slot id task r latest) :
    (r.pending? task).isSome ↔ ∃ e, latest = some e ∧ e.issues id task := by
  constructor
  · intro hsome
    obtain ⟨issued, hslot⟩ := Option.isSome_iff_exists.mp hsome
    exact h.exists_issues hslot
  · rintro ⟨e, rfl, he⟩
    obtain ⟨p, signature, before, -, -, hslot, -⟩ := h.of_issues he
    simp [hslot]

end Slot

lemma Slots.start {id : RunId} {r : Run α} (halive : r.isAlive)
    (hslots : ∀ t ∈ r.tasks, t.pending = none) : Slots id [] r where
  alive := halive
  slot task := .untouched (Run.pending?_eq_none hslots task)

/-- A slot stays empty from a call that has emptied it to the next request. -/
lemma Slots.slot_of_consumes {id : RunId} {r : Run α} {pre mid : List (Entry (Store α) α)}
    {a : Entry (Store α) α} {task : Nat} (h : Slots id (pre ++ a :: mid) r)
    (ha : a.consumes id task) (hmid : ∀ e ∈ mid, e.issues id task = false) :
    r.pending? task = none ∧ task < r.tasks.length := by
  obtain ⟨e, hlatest, he⟩ := latest_consumes pre ha hmid
  have hslot := h.slot task
  rw [hlatest] at hslot
  exact hslot.of_consumes he

lemma Run.pending?_congr {r r' : Run α} (h : r'.tasks = r.tasks) (task : Nat) :
    r'.pending? task = r.pending? task := by
  rw [pending?, pending?, h]

variable [Scalar α]

namespace Slots

variable {id : RunId} {H : List (Entry (Store α) α)} {r r' : Run α}

lemma issued {before : Store α} {task : Nat} {draw : Nat → Flip} {p : Perturbation α}
    {signature : UInt32} (h : Slots id H r) (hget : before.runs.get? id = some r)
    (hissue : r.issue task draw = .ok (r', p, signature)) :
    Slots id (H ++ [⟨before, .request true id task draw, .request (.issued p signature)⟩]) r' := by
  obtain ⟨-, ⟨t, ht, -⟩, -, -, rfl, rfl⟩ := Run.issue_eq_ok_iff.mp hissue
  have htask : task < r.tasks.length := (List.getElem?_eq_some_iff.mp ht).1
  refine ⟨h.alive, fun other => ?_⟩
  by_cases hother : other = task
  · subst hother
    rw [latest_append_of_touches (by simp [Entry.touches, Entry.issues])]
    exact .filled (by simp [Entry.issues]) rfl hget (Run.pending?_setPending_self htask _)
  · rw [latest_append_of_not_touches
      (by simp [Entry.touches, Entry.issues, Entry.consumes, Ne.symm hother])]
    exact (h.slot other).congr (Run.pending?_setPending_ne r hother _) (by simp)

lemma consumed {before : Store α} {task : Nat} {report : Report} {outcome : Outcome}
    (h : Slots id H r) (hconsumed : r.Consumed task report r' outcome) :
    Slots id (H ++ [⟨before, .report true id task report, .report outcome⟩]) r' := by
  obtain ⟨issued, hslot⟩ := hconsumed.exists_pending
  have htask := Run.lt_length_of_pending? hslot
  have hlength : r'.tasks.length = r.tasks.length := by simp [hconsumed.tasks_eq]
  have halive : r'.isAlive = r.isAlive := by cases hconsumed <;> rfl
  refine ⟨halive ▸ h.alive, fun other => ?_⟩
  have hpending := Run.pending?_congr hconsumed.tasks_eq other
  by_cases hother : other = task
  · subst hother
    have hconsumes : Entry.consumes id other
        (⟨before, .report true id other report, .report outcome⟩ : Entry (Store α) α) := by
      simp [Entry.consumes, hconsumed.consumes]
    rw [latest_append_of_touches (by simp [Entry.touches, hconsumes])]
    exact .emptied hconsumes (hlength ▸ htask)
      (hpending.trans (Run.pending?_setPending_self htask _))
  · rw [latest_append_of_not_touches
      (by simp [Entry.touches, Entry.issues, Entry.consumes, Ne.symm hother])]
    exact (h.slot other).congr (hpending.trans (Run.pending?_setPending_ne r hother _)) hlength

lemma step {e : Entry (Store α) α} (h : Slots id H r) (hget : e.before.runs.get? id = some r)
    (hstep : RunStep id r e r') : Slots id (H ++ [e]) r' := by
  cases hstep with
  | idle hidle =>
    refine ⟨h.alive, fun task => ?_⟩
    rw [latest_append_of_not_touches (hidle task)]
    exact h.slot task
  | issued hissue => exact h.issued hget hissue
  | consumed _ hconsumed => exact h.consumed hconsumed

end Slots

/-! ### Reports -/

/-- How a report is judged for a perturbation with a signature, with `next` as the counter after
it. -/
def Report.verdict (report : Report) (signature : UInt32) (next : Nat) : Outcome :=
  if signature ≠ report.signature.getD 0 then
    .signatureMismatch signature (report.signature.getD 0)
  else if report.pairs = 0 then .emptyBatch
  else .applied next

lemma Run.Consumed.eq_verdict {r r' : Run α} {task : Nat} {report : Report} {outcome : Outcome}
    {issued : Pending} (h : r.Consumed task report r' outcome)
    (hslot : r.pending? task = some issued) :
    outcome = report.verdict (Checksum.ofBytes issued.packed)
      (Scalar.count α (r.state.iter + report.pairs)) := by
  cases h with
  | mismatch hslot' hsig =>
    cases hslot.symm.trans hslot'
    simp [Report.verdict, hsig]
  | empty hslot' hsig hpairs =>
    cases hslot.symm.trans hslot'
    simp [Report.verdict, hsig, hpairs]
  | applied hslot' hsig hpairs =>
    cases hslot.symm.trans hslot'
    simp [Report.verdict, hsig, hpairs]

lemma RunStep.consumed_of_consumes {id : RunId} {r r' : Run α} {e : Entry (Store α) α} {task : Nat}
    (h : RunStep id r e r') (he : e.consumes id task) : ∃ report outcome,
      e.call = .report true id task report ∧ e.answer = .report outcome ∧
        r.Consumed task report r' outcome := by
  cases h with
  | idle hidle => simpa [Entry.touches, he] using hidle task
  | issued => cases he
  | @consumed _ task' report _ outcome _ hconsumed =>
    have htask : task' = task := by
      simpa [Entry.consumes, hconsumed.consumes] using he
    subst htask
    exact ⟨report, outcome, rfl, rfl, hconsumed⟩

/-- A report that uses a perturbation up is judged by what the latest request was answered. -/
lemma Slots.judged {id : RunId} {H : List (Entry (Store α) α)} {r r' : Run α}
    {b : Entry (Store α) α} {task : Nat} (h : Slots id H r) (hstep : RunStep id r b r')
    (hb : b.consumes id task) :
    ∃ e p signature before report, latest id task H = some e ∧ e.issues id task ∧
      e.answer = .request (.issued p signature) ∧ e.before.runs.get? id = some before ∧
      r.pending? task = some ⟨before.state.iter, Flip.pack p.flips⟩ ∧
      b.call = .report true id task report ∧
      b.answer = .report
        (report.verdict signature (Scalar.count α (r.state.iter + report.pairs))) := by
  obtain ⟨report, outcome, hcall, hanswer, hconsumed⟩ := hstep.consumed_of_consumes hb
  obtain ⟨issued, hsome⟩ := hconsumed.exists_pending
  have hslot := h.slot task
  obtain ⟨e, hlatest, he⟩ := hslot.exists_issues hsome
  rw [hlatest] at hslot
  obtain ⟨p, signature, before, hissued, hbefore, hpending, hsignature⟩ := hslot.of_issues he
  refine ⟨e, p, signature, before, report, hlatest, he, hissued, hbefore, hpending, hcall, ?_⟩
  rw [hanswer, hconsumed.eq_verdict hpending, hsignature]

namespace Coordinator

lemma call_of_pending?_none {s : Store α} {id : RunId} {r : Run α} {task : Nat}
    (hget : s.runs.get? id = some r) (halive : r.isAlive) (hslot : r.pending? task = none)
    (htask : task < r.tasks.length) (report : Report) :
    call Store.repository s (.report true id task report) =
      (.report .noPendingPerturbation, s) := by
  simp [call, Coordinator.report, Store.repository, hget,
    Run.consume_of_pending?_none halive htask hslot]

lemma after_reports_of_pending?_none {s : Store α} {id : RunId} {r : Run α} {task : Nat}
    (hget : s.runs.get? id = some r) (halive : r.isAlive) (hslot : r.pending? task = none)
    (htask : task < r.tasks.length) (reports : List Report) :
    after Store.repository s (reports.map (.report true id task)) = s := by
  induction reports with
  | nil => rfl
  | cons report reports ih =>
    rw [List.map_cons, after_cons, call_of_pending?_none hget halive hslot htask]
    exact ih

/-! ### Whole runs -/

/-- In the trace of the calls, and in the run that they make of `r`, every perturbation is used up
at most once. -/
structure ConsumedOnce (id : RunId) (s : Store α) (r : Run α) (calls : List Call) (r' : Run α) :
    Prop where
  /-- A slot is filled exactly if the latest call that touched it is a request. -/
  filled : ∀ task, (r'.pending? task).isSome ↔
    ∃ e, latest id task (trace Store.repository s calls) = some e ∧ e.issues id task
  /-- It then holds the counter at that request and the packed flips that were returned, and their
  checksum is the signature that was returned. That counter is not above the one of the run, unless
  the pairs of the applied reports have taken the counter past its bound. -/
  content : ∀ task e, latest id task (trace Store.repository s calls) = some e →
    e.issues id task → ∃ p signature before,
      e.answer = .request (.issued p signature) ∧ e.before.runs.get? id = some before ∧
        r'.pending? task = some ⟨before.state.iter, Flip.pack p.flips⟩ ∧
        Checksum.ofBytes (Flip.pack p.flips) = signature ∧
        (Scalar.FitsCounter α (r.state.iter + appliedPairs id (trace Store.repository s calls)) →
          before.state.iter ≤ r'.state.iter)
  /-- Between two reports that use up perturbations of a task, the task is issued one. -/
  between : ∀ (task : Nat) (pre mid post : List (Entry (Store α) α)) (a b : Entry (Store α) α),
    trace Store.repository s calls = pre ++ a :: mid ++ b :: post →
    a.consumes id task → b.consumes id task → ∃ e ∈ mid, e.issues id task
  /-- Until then every report is turned away and changes nothing. -/
  spent : ∀ (task : Nat) (pre mid post : List (Entry (Store α) α)) (a b : Entry (Store α) α)
    (report : Report),
    trace Store.repository s calls = pre ++ a :: mid ++ b :: post →
    a.consumes id task → (∀ e ∈ mid, e.issues id task = false) →
    b.call = .report true id task report →
      b.answer = .report .noPendingPerturbation ∧
        (call Store.repository b.before b.call).2 = b.before
  /-- So reports that are sent again, however often, change nothing. -/
  repeated : ∀ task e (reports : List Report),
    latest id task (trace Store.repository s calls) = some e → e.consumes id task →
      after Store.repository (after Store.repository s calls)
        (reports.map (.report true id task)) = after Store.repository s calls
  /-- A report uses up the perturbation of the latest request and no older one, and is judged by
  the signature that this request was answered. -/
  newest : ∀ (task : Nat) (pre post : List (Entry (Store α) α)) (b : Entry (Store α) α),
    trace Store.repository s calls = pre ++ b :: post →
    b.consumes id task → ∃ e p signature before r₁ report,
      latest id task pre = some e ∧ e.issues id task ∧
        e.answer = .request (.issued p signature) ∧ e.before.runs.get? id = some before ∧
        b.before.runs.get? id = some r₁ ∧
        r₁.pending? task = some ⟨before.state.iter, Flip.pack p.flips⟩ ∧
        b.call = .report true id task report ∧
        b.answer = .report
          (report.verdict signature (Scalar.count α (r₁.state.iter + report.pairs)))

/-- Whatever the calls, every perturbation of a live run is used up at most once. -/
theorem consumed_at_most_once {s : Store α} (hs : s.Filed) {id : RunId} {r : Run α}
    (hget : s.runs.get? id = some r) (halive : r.isAlive)
    (hslots : ∀ t ∈ r.tasks, t.pending = none) (calls : List Call) :
    ∃ r', (after Store.repository s calls).runs.get? id = some r' ∧
      ConsumedOnce id s r calls r' := by
  have hstart : Slots id [] r := .start halive hslots
  obtain ⟨r', hget', h'⟩ := exists_run_after (Slots id)
    (fun h hget hstep => h.step hget hstep) hs hget hstart calls
  have hentry {pre e post} (htrace : trace Store.repository s calls = pre ++ e :: post) :=
    exists_runStep_of_trace (Slots id)
      (fun h hget hstep => h.step hget hstep) hs hget hstart htrace
  refine ⟨r', hget', ?_, ?_, ?_, ?_, ?_, ?_⟩
  · intro task
    exact (h'.slot task).isSome_iff
  · intro task e hlatest he
    have hslot := h'.slot task
    rw [hlatest] at hslot
    obtain ⟨p, signature, before, hanswer, hbefore, hpending, hsignature⟩ := hslot.of_issues he
    exact ⟨p, signature, before, hanswer, hbefore, hpending, hsignature,
      iter_le_of_trace hs hget (mem_of_latest hlatest) hbefore hget'⟩
  · intro task pre mid post a b htrace ha hb
    by_contra hnone
    have hmid : ∀ e ∈ mid, e.issues id task = false := by
      intro e he
      by_contra hissues
      exact hnone ⟨e, he, by simpa using hissues⟩
    obtain ⟨r₁, r₂, h₁, -, hrun, -⟩ := hentry htrace
    obtain ⟨e, -, -, -, -, hlatest, he, -⟩ := h₁.judged hrun hb
    obtain ⟨e', hlatest', he'⟩ := latest_consumes pre ha hmid
    cases hlatest.symm.trans hlatest'
    simp [Entry.not_consumes_of_issues he] at he'
  · intro task pre mid post a b report htrace ha hmid hcall
    obtain ⟨r₁, r₂, h₁, hget₁, -, hanswer⟩ := hentry htrace
    obtain ⟨hempty, htask⟩ := h₁.slot_of_consumes ha hmid
    rw [hanswer, hcall, call_of_pending?_none hget₁ h₁.alive hempty htask report]
    exact ⟨rfl, rfl⟩
  · intro task e reports hlatest he
    have hslot := h'.slot task
    rw [hlatest] at hslot
    obtain ⟨hempty, htask⟩ := hslot.of_consumes he
    exact after_reports_of_pending?_none hget' h'.alive hempty htask reports
  · intro task pre post b htrace hb
    obtain ⟨r₁, r₂, h₁, hget₁, hrun, -⟩ := hentry htrace
    obtain ⟨e, p, signature, before, report, hlatest, he, hissued, hbefore, hpending, hcall,
      hanswer⟩ := h₁.judged hrun hb
    exact ⟨e, p, signature, before, r₁, report, hlatest, he, hissued, hbefore, hget₁, hpending,
      hcall, hanswer⟩

theorem consumed_at_most_once_twoBatches :
    Store.small.Filed ∧ Store.small.runs.get? ⟨1⟩ = some Run.small ∧ Run.small.isAlive ∧
      (∀ t ∈ Run.small.tasks, t.pending = none) ∧
      ∃ r', (after Store.repository Store.small twoBatches).runs.get? ⟨1⟩ = some r' ∧
        ConsumedOnce ⟨1⟩ Store.small Run.small twoBatches r' :=
  ⟨Store.filed_small, Store.get?_small, rfl, Run.pending_small,
    consumed_at_most_once Store.filed_small Store.get?_small rfl Run.pending_small twoBatches⟩

/-! ### Past the bound of the counter -/

/-- A report of as many games as there is room for, with its two decided ones even. -/
def hugeReport : Report :=
  ⟨1, 1, 0, 2 ^ 64 - 1, some (Checksum.ofBytes (Flip.pack [.plus]))⟩

/-- The first worker plays that many games. -/
def hugeRound : List Call :=
  [.request true ⟨1⟩ 0 fun _ => .plus, .report true ⟨1⟩ 0 hugeReport]

/-- The first worker plays three such rounds. Before the last one the second worker is issued a
perturbation. -/
def hugeRounds : List Call :=
  hugeRound ++ (hugeRound ++ ([.request true ⟨1⟩ 1 fun _ => .minus] ++ hugeRound))

/-- A round of so many games takes the counter around, and leaves all that the next one needs. -/
lemma exists_run_after_hugeRound {s : Store Float} (hs : s.Filed) {r : Run Float}
    (hget : s.runs.get? ⟨1⟩ = some r) (hplaying : ∀ task < 2, r.Playing task)
    (hparams : r.state.params.length = 1) :
    ∃ r', (after Store.repository s hugeRound).runs.get? ⟨1⟩ = some r' ∧
      (∀ task < 2, r'.Playing task) ∧ r'.state.params.length = 1 ∧
      r'.state.iter = (r.state.iter + (2 ^ 63 - 1)) % 2 ^ 64 ∧ r'.pending? 1 = r.pending? 1 := by
  have hsig : hugeReport.signature =
      some (Checksum.ofBytes (r.pendingOf fun _ => .plus).packed) := by
    rw [Run.pendingOf_eq hparams]
    rfl
  have hpairs : hugeReport.pairs = 2 ^ 63 - 1 := by decide
  have hpairs_ne : hugeReport.pairs ≠ 0 := by decide
  refine ⟨r.round 0 (fun _ => .plus) hugeReport, ?_, ?_, ?_, ?_, ?_⟩
  · exact get?_after_round hs hget (hplaying 0 (by decide)) _ hugeReport hsig hpairs_ne
  · exact fun task htask => (hplaying task htask).round 0 _ hugeReport
  · rw [Run.length_params_round, hparams]
  · rw [Run.round_iter _ _ _ hpairs_ne, hpairs, Scalar.count_float]
  · exact Run.pending?_round_ne _ (by decide) _ _

lemma playing_small : ∀ task < 2, Run.small.Playing task := by
  intro task htask
  refine ⟨rfl, ?_, ?_⟩
  · interval_cases task
    · exact ⟨_, rfl, rfl⟩
    · exact ⟨_, rfl, rfl⟩
  · have hrange : (0 : Float) ≤ 10 := by decide
    simp [Run.small, Run.addTask, Run.create, Parameter.hasRange, hrange]

/-- A counter that passes its bound starts again from zero, below the counters in slots that were
filled before: here the slot of the second worker holds `2 ^ 64 - 2`, and the run has come to
`2 ^ 63 - 3`. -/
theorem slot_outruns_counter :
    Store.small.Filed ∧ Store.small.runs.get? ⟨1⟩ = some Run.small ∧ Run.small.isAlive ∧
      (∀ t ∈ Run.small.tasks, t.pending = none) ∧
      ∃ r', (after Store.repository Store.small hugeRounds).runs.get? ⟨1⟩ = some r' ∧
        r'.pending? 1 = some ⟨2 ^ 64 - 2, Flip.pack [.minus]⟩ ∧
        r'.state.iter = 2 ^ 63 - 3 ∧ ¬ 2 ^ 64 - 2 ≤ r'.state.iter := by
  refine ⟨Store.filed_small, Store.get?_small, rfl, Run.pending_small, ?_⟩
  have hfiled₁ := filed_after Store.filed_small hugeRound
  have hfiled₂ := filed_after hfiled₁ hugeRound
  have hfiled₃ := filed_after hfiled₂ [.request true ⟨1⟩ 1 fun _ => .minus]
  obtain ⟨r₁, hget₁, hplaying₁, hparams₁, hiter₁, -⟩ :=
    exists_run_after_hugeRound Store.filed_small Store.get?_small playing_small rfl
  obtain ⟨r₂, hget₂, hplaying₂, hparams₂, hiter₂, -⟩ :=
    exists_run_after_hugeRound hfiled₁ hget₁ hplaying₁ hparams₁
  have hiter : r₂.state.iter = 2 ^ 64 - 2 := by
    rw [hiter₂, hiter₁, show Run.small.state.iter = 0 from rfl]
    norm_num
  -- Now the slot of the second worker is filled, and the last round passes the bound.
  have hget₃ := get?_after_request hfiled₂ hget₂ (hplaying₂ 1 (by decide)) fun _ => .minus
  rw [Run.pendingOf_eq hparams₂, hiter] at hget₃
  obtain ⟨r₄, hget₄, -, -, hiter₄, hslot₄⟩ := exists_run_after_hugeRound hfiled₃ hget₃
    (fun task htask => (hplaying₂ task htask).setPending 1 _) hparams₂
  rw [Run.setPending_state, hiter] at hiter₄
  rw [Run.pending?_setPending_self (hplaying₂ 1 (by decide)).lt_length] at hslot₄
  refine ⟨r₄, ?_, hslot₄, by rw [hiter₄]; norm_num, by omega⟩
  rw [hugeRounds, after_append, after_append, after_append]
  exact hget₄

end Coordinator

end PairedTuning
