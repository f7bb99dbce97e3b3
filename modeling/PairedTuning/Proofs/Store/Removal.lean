import Mathlib
import PairedTuning.Proofs.Store.Separation
import PairedTuning.Proofs.Store.Transparency

/-!
# Removed runs stay removed

A run may be taken out of the store while the cache still has a copy of it, and that copy goes on
being read. It is a ghost: every attempt to write it back fails, so no call has an effect on it, and
the first such attempt throws the copy away for good.

`Gone` is what the events after the removal preserve, and `Fades` adds that a copy that is gone does
not come back.
-/

namespace PairedTuning

variable {σ α : Type}

/-! ### Answers and attempts -/

/-- Whether an answer says that the call has changed its run. -/
def Answer.takesEffect : Answer α → Bool
  | request (.issued _ _) => true
  | request (.refused _) => false
  | report outcome => outcome.consumes
  | state _ => false

namespace Call

/-- The answer to a call that could not write its run back. -/
def failure? : Call → Option (Answer α)
  | request .. => some (.request (.refused .runUnavailable))
  | report .. => some (.report .storageFailure)
  | state _ => none

variable [Scalar α]

/-- A call that writes nothing has no effect. -/
lemma takesEffect_of_decide_answer {c : Call} {read : Except StoreError (Option (Run α))}
    {a : Answer α} (h : c.decide read = .answer a) : a.takesEffect = false := by
  cases c with
  | request primary run task draw =>
    rcases read with _ | _ | r
    · cases h
      rfl
    · cases h
      rfl
    · rcases hissue : r.issue task draw with reason | ⟨r', p, signature⟩
      · simp only [decide, hissue, Decision.answer.injEq] at h
        subst h
        rfl
      · simp [decide, hissue] at h
  | report primary run task report =>
    rcases read with _ | _ | r
    · cases h
      rfl
    · cases h
      rfl
    · rcases hconsume : r.consume task report with outcome | ⟨r', outcome⟩
      · simp only [decide, hconsume, Decision.answer.injEq] at h
        subst h
        exact Run.consumes_of_consume_error hconsume
      · simp [decide, hconsume] at h
  | state run =>
    cases h
    rfl

lemma failure?_of_decide_write {c : Call} {read : Except StoreError (Option (Run α))} {r : Run α}
    {success failure : Answer α} (h : c.decide read = .write r success failure) :
    c.failure? = some failure := by
  obtain ⟨-, -, ⟨-, -, -, -, -, -, rfl, -, -, rfl⟩ | ⟨-, -, -, -, -, rfl, -, -, rfl⟩⟩ :=
    decide_write_cases h
  · rfl
  · rfl

omit [Scalar α] in
lemma takesEffect_of_failure? {c : Call} {a : Answer α} (h : c.failure? = some a) :
    a.takesEffect = false := by
  cases c <;> cases h <;> rfl

lemma takesEffect_of_not_takesLock {c : Call} (hlock : c.takesLock = false)
    (repo : Repository σ α) (s : σ) : (Coordinator.call repo s c).1.takesEffect = false := by
  cases c with
  | request primary run task draw =>
    obtain rfl : primary = false := hlock
    rfl
  | report primary run task report =>
    obtain rfl : primary = false := hlock
    rfl
  | state run => cases hlock

end Call

namespace Access

/-- The run that a use tries to write back, if it does. -/
def attempt? [Scalar α] (repo : Repository σ α) (s : σ) : Access α → Option (Run α)
  | call c =>
    if c.takesLock then
      match c.decide (repo.get s c.run).1 with
      | .answer _ => none
      | .write r _ _ => some r
    else none
  | get _ => none
  | buffer r => some r

/-- The reply to a use that could not write a run back. -/
def failure? : Access α → Option (Reply α)
  | call c => c.failure?.map .answer
  | get _ => none
  | buffer r => some (.buffered (.error (.runNotFound r.id)))

end Access

/-- Whether a run is put into the store behind the cache. -/
def CacheEvent.inserts (id : RunId) : CacheEvent α → Bool
  | insert r => r.id = id
  | _ => false

/-! ### Runs that are gone -/

namespace Cached

/-- A run is gone from the store behind the cache. There may still be a copy of it. -/
structure Gone (id : RunId) (s : Cached (Store α) α) : Prop where
  filed : s.inner.Filed
  copies : s.CopiesFiled
  missing : s.inner.runs.get? id = none

/-- A run stays gone, and gets no copy if it has none. -/
structure Fades (id : RunId) (s s' : Cached (Store α) α) : Prop where
  gone : s'.Gone id
  copy : s.copies.get? id = none → s'.copies.get? id = none

lemma Fades.trans {id : RunId} {s s' s'' : Cached (Store α) α} (h : Fades id s s')
    (h' : Fades id s' s'') : Fades id s s'' :=
  ⟨h'.gone, fun hcopy => h'.copy (h.copy hcopy)⟩

namespace Gone

variable {id : RunId} {s : Cached (Store α) α} (h : s.Gone id)

include h

lemma fades_self : Fades id s s := ⟨h, fun hcopy => hcopy⟩

lemma invalidate (lost : RunId) : Fades id s (s.invalidate lost) where
  gone := ⟨h.filed, copiesFiled_invalidate h.copies lost, h.missing⟩
  copy hcopy := by
    rw [Cached.invalidate, RunTable.get?_erase]
    split_ifs
    · rfl
    · exact hcopy

lemma expire (ids : List RunId) : Fades id s (s.expire ids) := by
  induction ids generalizing s with
  | nil => exact h.fades_self
  | cons lost ids ih =>
    have hfirst := h.invalidate lost
    exact hfirst.trans (ih hfirst.gone)

/-- A change behind the cache that does not bring the run back. -/
lemma change {inner : Store α} (hfiled : inner.Filed) (hmissing : inner.runs.get? id = none) :
    Fades id s { s with inner } :=
  ⟨⟨hfiled, h.copies, hmissing⟩, fun hcopy => hcopy⟩

/-- A run that is gone is not copied when others are. -/
lemma keep {r : Run α} (hne : id ≠ r.id) : Fades id s (s.keep r.id r) where
  gone := ⟨h.filed, copiesFiled_keep h.copies r, h.missing⟩
  copy hcopy := by
    rw [Cached.keep, RunTable.get?_insert, if_neg hne]
    exact hcopy

/-! #### Reading -/

lemma get (other : RunId) : Fades id s (s.get Store.repository other).2 := by
  obtain ⟨r, hcopy⟩ | ⟨hcopy, ⟨r, hget⟩ | hmissing⟩ := get_cases Store.repository s other
  · rw [get_of_hit hcopy]
    exact h.fades_self
  · rw [get_of_found hcopy hget]
    obtain rfl : r.id = other := h.filed other r (Except.ok.inj hget)
    have hne : id ≠ r.id := by
      rintro rfl
      exact Option.some_ne_none r ((Except.ok.inj hget).symm.trans h.missing)
    exact h.keep hne
  · rw [get_of_not_found hcopy hmissing]
    exact h.fades_self

/-- Without a copy nothing is found. -/
lemma get_of_no_copy (hcopy : s.copies.get? id = none) :
    (s.get Store.repository id).1 = .ok none := by
  have hanswer : (Store.repository.get s.inner id).1 = .ok none := congrArg Except.ok h.missing
  rw [get_of_not_found hcopy fun r hget => by simp [hanswer] at hget]
  exact hanswer

/-! #### Writing -/

/-- An attempt to write the run back fails, and throws its copy away. -/
lemma buffer_own {r : Run α} (hid : r.id = id) :
    s.buffer Store.repository r = (.error (.runNotFound id), s.invalidate id) := by
  subst hid
  have herror : Store.repository.buffer s.inner r = (.error (.runNotFound r.id), s.inner) :=
    Store.buffer_of_missing h.missing
  rw [buffer_of_error (congrArg Prod.fst herror), herror]

lemma buffer (r : Run α) : Fades id s (s.buffer Store.repository r).2 := by
  by_cases hid : r.id = id
  · rw [h.buffer_own hid]
    exact h.invalidate id
  · rcases hget : s.inner.runs.get? r.id with _ | r₀
    · have herror : Store.repository.buffer s.inner r = (.error (.runNotFound r.id), s.inner) :=
        Store.buffer_of_missing hget
      rw [buffer_of_error (congrArg Prod.fst herror), herror]
      exact h.invalidate r.id
    · have hok : Store.repository.buffer s.inner r = (.ok (), s.inner.write r) :=
        Store.buffer_eq hget
      have hmissing : (s.inner.write r).runs.get? id = none := by
        rw [s.inner.get?_write_ne (Ne.symm hid)]
        exact h.missing
      have hchange := h.change (h.filed.write r) hmissing
      rw [buffer_of_ok (congrArg Prod.fst hok), hok]
      exact hchange.trans (hchange.gone.keep (Ne.symm hid))

lemma buffer_expiring (expired : List RunId) (r : Run α) :
    Fades id s ((expiring expired).buffer s r).2 := by
  have hexpire := h.expire expired
  exact hexpire.trans (hexpire.gone.buffer r)

lemma buffer_expiring_own (expired : List RunId) {r : Run α} (hid : r.id = id) :
    (expiring expired).buffer s r =
      (.error (.runNotFound id), (s.expire expired).invalidate id) :=
  (h.expire expired).gone.buffer_own hid

/-! #### Calls and other events -/

variable [Scalar α]

lemma call (c : Call) (expired : List RunId) :
    Fades id s (Coordinator.call (expiring expired) s c).2 := by
  rcases hlock : c.takesLock
  · obtain ⟨a, ha⟩ := Coordinator.call_of_not_takesLock (α := α) hlock
    rw [ha]
    exact h.fades_self
  · have hread := h.get c.run
    rw [Coordinator.call_eq_phases _ _ hlock]
    rcases c.decide ((expiring expired).get s c.run).1 with a | ⟨r, success, failure⟩
    · exact hread
    · exact hread.trans (hread.gone.buffer_expiring expired r)

/-- The run that a call on the gone run writes back is the gone one. -/
lemma id_of_decide_write {c : Call} (hrun : c.run = id) {expired : List RunId} {r : Run α}
    {success failure : Answer α}
    (hdecide : c.decide ((expiring expired).get s c.run).1 = .write r success failure) :
    r.id = id := by
  obtain ⟨r₀, hread, hid⟩ := Call.id_of_decide_write hdecide
  rw [hid, ← hrun]
  exact get_filed Store.separated h.filed h.copies hread

/-- A call that tries to write the gone run back fails, and leaves no copy. -/
lemma call_of_write {c : Call} (hlock : c.takesLock) {expired : List RunId} {r : Run α}
    {success failure : Answer α}
    (hdecide : c.decide ((expiring expired).get s c.run).1 = .write r success failure)
    (hid : r.id = id) :
    Coordinator.call (expiring expired) s c =
      (failure, ((s.get Store.repository c.run).2.expire expired).invalidate id) := by
  have hbuffer : (expiring expired).buffer ((expiring expired).get s c.run).2 r =
      (.error (.runNotFound id), ((s.get Store.repository c.run).2.expire expired).invalidate id) :=
    (h.get c.run).gone.buffer_expiring_own expired hid
  rw [Coordinator.call_eq_phases _ s hlock, hdecide]
  simp only [hbuffer, Answer.ofWrite]

/-- A call on the run has no effect, even if it has read a copy. -/
lemma takesEffect_call {c : Call} (hrun : c.run = id) (expired : List RunId) :
    (Coordinator.call (expiring expired) s c).1.takesEffect = false := by
  rcases hlock : c.takesLock
  · exact Call.takesEffect_of_not_takesLock hlock _ s
  · rcases hdecide : c.decide ((expiring expired).get s c.run).1 with a | ⟨r, success, failure⟩
    · rw [Coordinator.call_eq_phases _ _ hlock, hdecide]
      exact Call.takesEffect_of_decide_answer hdecide
    · rw [h.call_of_write hlock hdecide (h.id_of_decide_write hrun hdecide)]
      exact Call.takesEffect_of_failure? (Call.failure?_of_decide_write hdecide)

lemma perform (a : Access α) (expired : List RunId) :
    Fades id s (a.perform (expiring expired) s).2 := by
  cases a with
  | call c => exact h.call c expired
  | get other => exact h.get other
  | buffer r => exact h.buffer_expiring expired r

/-- An attempt to write the run back, by whatever use, fails and leaves no copy. -/
lemma perform_attempt {a : Access α} {expired : List RunId} {r : Run α}
    (hattempt : a.attempt? (expiring expired) s = some r) (hid : r.id = id) :
    a.failure? = some (a.perform (expiring expired) s).1 ∧
      (a.perform (expiring expired) s).2.copies.get? id = none := by
  cases a with
  | call c =>
    simp only [Access.attempt?] at hattempt
    split_ifs at hattempt with hlock
    rcases hdecide : c.decide ((expiring expired).get s c.run).1 with a | ⟨r', success, failure⟩
    · simp [hdecide] at hattempt
    · simp only [hdecide, Option.some.injEq] at hattempt
      subst hattempt
      simp only [Access.failure?, Access.perform, h.call_of_write hlock hdecide hid,
        Call.failure?_of_decide_write hdecide, Option.map_some]
      exact ⟨trivial, by simp [Cached.invalidate]⟩
  | get other => cases hattempt
  | buffer r' =>
    obtain rfl : r' = r := Option.some.inj hattempt
    simp only [Access.failure?, Access.perform, h.buffer_expiring_own expired hid, hid]
    exact ⟨trivial, by simp [Cached.invalidate]⟩

lemma step {e : CacheEvent α} (hinsert : e.inserts id = false) : Fades id s (s.step e).2 := by
  cases e with
  | access a expired => exact h.perform a expired
  | invalidate lost => exact h.invalidate lost
  | invalidateAll => exact ⟨⟨h.filed, fun _ _ hcopy => (by cases hcopy), h.missing⟩, fun _ => rfl⟩
  | expire ids => exact h.expire ids
  | insert r =>
    have hne : r.id ≠ id := of_decide_eq_false hinsert
    refine h.change (h.filed.insert r) ?_
    rw [Store.insert, RunTable.get?_insert, if_neg hne.symm]
    exact h.missing
  | remove other =>
    refine h.change (h.filed.remove other) ?_
    rw [Store.remove, RunTable.get?_erase]
    split_ifs
    · rfl
    · exact h.missing

end Gone

/-! ### Events after a removal -/

variable [Scalar α]

/-- The cached store after a sequence of events. -/
def after (s : Cached (Store α) α) (events : List (CacheEvent α)) : Cached (Store α) α :=
  events.foldl (fun s e => (s.step e).2) s

lemma Gone.after {id : RunId} {s : Cached (Store α) α} (h : s.Gone id)
    {events : List (CacheEvent α)} (hevents : ∀ e ∈ events, e.inserts id = false) :
    Fades id s (s.after events) := by
  induction events generalizing s with
  | nil => exact h.fades_self
  | cons e events ih =>
    obtain ⟨he, hrest⟩ := List.forall_mem_cons.mp hevents
    have hstep := h.step he
    exact hstep.trans (ih hstep.gone hrest)

/-- A run has neither come back nor moved on after a sequence of events. -/
structure StaysRemoved (id : RunId) (s : Cached (Store α) α) (events : List (CacheEvent α)) :
    Prop where
  /-- The store does not have the run. -/
  missing : (s.after events).inner.runs.get? id = none
  /-- The next request for the run, if there is one, is turned away. -/
  requests : ∀ primary task draw expired,
    (Coordinator.request (expiring expired) (s.after events) primary id
      task draw).1.toResponse.taskAlive = false
  /-- The next report is not applied, nor does it use a perturbation up in another way. -/
  reports : ∀ primary task report expired,
    (Coordinator.report (expiring expired) (s.after events) primary id
      task report).1.consumes = false
  /-- If the next use tries to write the run back, it fails. -/
  attempts : ∀ (a : Access α) expired (r : Run α),
    a.attempt? (expiring expired) (s.after events) = some r → r.id = id →
    a.failure? = some (a.perform (expiring expired) (s.after events)).1
  /-- If there was such an attempt, the run is not found any more. -/
  notFound : ∀ earlier (a : Access α) expired later (r : Run α),
    events = earlier ++ .access a expired :: later →
    a.attempt? (expiring expired) (s.after earlier) = some r → r.id = id →
    ((s.after events).get Store.repository id).1 = .ok none

lemma Gone.staysRemoved {id : RunId} {s : Cached (Store α) α} (h : s.Gone id)
    {events : List (CacheEvent α)} (hevents : ∀ e ∈ events, e.inserts id = false) :
    s.StaysRemoved id events := by
  have hgone := (h.after hevents).gone
  constructor
  case missing => exact hgone.missing
  case requests =>
    intro primary task draw expired
    have heffect := hgone.takesEffect_call (c := .request primary id task draw) rfl expired
    rw [Coordinator.call] at heffect
    rcases hanswer : (Coordinator.request (expiring expired) (s.after events) primary id
      task draw).1 with ⟨p, signature⟩ | reason
    · simp [hanswer, Answer.takesEffect] at heffect
    · rfl
  case reports =>
    intro primary task report expired
    exact hgone.takesEffect_call (c := .report primary id task report) rfl expired
  case attempts =>
    intro a expired r hattempt hid
    exact (hgone.perform_attempt hattempt hid).1
  case notFound =>
    rintro earlier a expired later r rfl hattempt hid
    have hbefore := (h.after fun e he => hevents e (List.mem_append_left _ he)).gone
    have hcopy := (hbefore.perform_attempt hattempt hid).2
    have hlater := (hbefore.perform a expired).gone.after fun e he =>
      hevents e (List.mem_append_right _ (List.mem_cons_of_mem _ he))
    refine hgone.get_of_no_copy ?_
    rw [Cached.after, List.foldl_append]
    exact hlater.copy hcopy

/-- A run that was removed behind the cache is never brought back and never moves on, whatever
copies there are and whatever happens later, unless it is put into the store anew. -/
theorem removed_run_stays_removed {s : Cached (Store α) α} (hs : s.inner.Filed)
    (hcopies : s.CopiesFiled) (id : RunId) {events : List (CacheEvent α)}
    (hevents : ∀ e ∈ events, e.inserts id = false) :
    StaysRemoved id { s with inner := s.inner.remove id } events := by
  apply Gone.staysRemoved _ hevents
  constructor
  · exact hs.remove id
  · exact hcopies
  · simp [Store.remove]

/-- The small run is removed while a copy of it has a perturbation out. A report on that copy is
read, folded, and not written back. -/
theorem removed_run_stays_removed_small :
    let ghost : Run Float := Run.small.setPending 0 (some ⟨0, Flip.pack [.plus]⟩)
    let s : Cached (Store Float) Float := ⟨Store.small, .insert .empty ⟨1⟩ ghost⟩
    let report : Access Float := .call (.report true ⟨1⟩ 0 ⟨4, 1, 1, 6, none⟩)
    let events : List (CacheEvent Float) :=
      [.access (.get ⟨1⟩) [], .access report [], .access (.buffer Run.small) [⟨2⟩],
        .access (.call (.request true ⟨1⟩ 1 fun _ => .minus)) []]
    s.inner.Filed ∧ s.CopiesFiled ∧ (∀ e ∈ events, e.inserts ⟨1⟩ = false) ∧
      ((report.attempt? (expiring []) { s with inner := s.inner.remove ⟨1⟩ }).map (·.id)) =
        some ⟨1⟩ ∧
      StaysRemoved ⟨1⟩ { s with inner := s.inner.remove ⟨1⟩ } events := by
  intro ghost s report events
  have hcopies : s.CopiesFiled :=
    copiesFiled_keep (s := ⟨Store.small, .empty⟩) (fun _ _ hcopy => by cases hcopy) ghost
  have hevents : ∀ e ∈ events, e.inserts ⟨1⟩ = false := by decide
  exact ⟨Store.filed_small, hcopies, hevents, by decide +kernel,
    removed_run_stays_removed Store.filed_small hcopies ⟨1⟩ hevents⟩

end Cached

end PairedTuning
