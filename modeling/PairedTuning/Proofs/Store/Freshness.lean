import Mathlib
import PairedTuning.Proofs.Coordinator.Trace
import PairedTuning.Store.Cache

/-!
# Caches that are shared

Several reads and writes use a cached store at the same time, without the locks of the runs. Each
goes through its phases one after the other, and between any two of them the others may go on. The
history records every phase, so the order in the history is the order in time.

A read that has missed may fill the cache with a run that was written over in the meantime, and so
may a write whose run was written over by another. Such a run is then served although a newer one
was written back before. Nothing else makes a read stale: a write that is not `Overtaken` in this
way is seen by all later reads.
-/

namespace PairedTuning

/-! ### Histories -/

/-- A use of a cached store. -/
inductive CacheUse (α : Type) where
  | get (id : RunId)
  | buffer (r : Run α)

/-- How far a use has come. -/
inductive UsePhase (α : Type) where
  | started
  /-- A read has found a copy. -/
  | hit (r : Run α)
  | missed
  /-- A read that has missed has the answer of the store. -/
  | read (answer : Except StoreError (Option (Run α)))
  /-- A write has tried to replace the run in the store. -/
  | wrote (outcome : Except StoreError Unit)
  /-- A copy has been put into the cache. -/
  | kept (r : Run α)
  /-- The copy of a run that could not be written has been thrown away. -/
  | dropped (e : StoreError)
  /-- A read has returned. -/
  | gave (answer : Except StoreError (Option (Run α)))
  /-- A write has returned. -/
  | ended (outcome : Except StoreError Unit)

/-- Whether a copy has been put into the cache in this phase. -/
def UsePhase.isKept {α : Type} : UsePhase α → Bool
  | kept _ => true
  | _ => false

namespace CacheUse

variable {α : Type}

def run : CacheUse α → RunId
  | get id => id
  | buffer r => r.id

/-- The next phase of a use, and what it makes of the cache and of the store behind it. -/
def next (s : Cached (Store α) α) :
    CacheUse α → UsePhase α → Option (UsePhase α × Cached (Store α) α)
  | get id, .started =>
    match s.copies.get? id with
    | some r => some (.hit r, s)
    | none => some (.missed, s)
  | get _, .hit r => some (.gave (.ok (some r)), s)
  | get id, .missed =>
    let (answer, inner) := Store.repository.get s.inner id
    some (.read answer, { s with inner })
  | get id, .read (.ok (some r)) => some (.kept r, s.keep id r)
  | get _, .read answer => some (.gave answer, s)
  | get _, .kept r => some (.gave (.ok (some r)), s)
  | buffer r, .started =>
    let (outcome, inner) := Store.repository.buffer s.inner r
    some (.wrote outcome, { s with inner })
  | buffer r, .wrote (.ok ()) => some (.kept r, s.keep r.id r)
  | buffer r, .wrote (.error e) => some (.dropped e, s.invalidate r.id)
  | buffer _, .kept _ => some (.ended (.ok ()), s)
  | buffer _, .dropped e => some (.ended (.error e), s)
  | _, _ => none

end CacheUse

/-- An entry of a history: a use has reached a phase. -/
structure Mark (α : Type) where
  use : Nat
  call : CacheUse α
  phase : UsePhase α

/-- The run that has been written into the store. -/
def Mark.written {α : Type} : Mark α → Option (Run α)
  | ⟨_, .buffer r, .wrote (.ok ())⟩ => some r
  | _ => none

/-- A cached store that is used by several at the same time. -/
structure SharedCache (α : Type) where
  cached : Cached (Store α) α
  /-- The uses so far, each with its phase. -/
  uses : List (CacheUse α × UsePhase α)
  history : List (Mark α)

inductive CacheMove (α : Type) where
  | start (u : CacheUse α)
  | advance (k : Nat)
  /-- A copy expires, or makes room for others. -/
  | expire (id : RunId)

namespace SharedCache

variable {α : Type}

def start (s : Store α) : SharedCache α := ⟨.ofInner s, [], []⟩

def step (m : SharedCache α) : CacheMove α → SharedCache α
  | .start u =>
    { m with
      uses := m.uses ++ [(u, .started)]
      history := m.history ++ [⟨m.uses.length, u, .started⟩] }
  | .advance k =>
    match m.uses[k]? with
    | none => m
    | some (u, phase) =>
      match u.next m.cached phase with
      | none => m
      | some (phase, cached) =>
        ⟨cached, m.uses.set k (u, phase), m.history ++ [⟨k, u, phase⟩]⟩
  | .expire id => { m with cached := m.cached.invalidate id }

def after (m : SharedCache α) (moves : List (CacheMove α)) : SharedCache α := moves.foldl step m

@[simp] lemma after_append_singleton (m : SharedCache α) (moves : List (CacheMove α))
    (e : CacheMove α) : m.after (moves ++ [e]) = (m.after moves).step e := List.foldl_append

/-! ### Uses that are alone -/

/-- All phases of a use after its start, undisturbed. -/
def alone (u : CacheUse α) (s : Cached (Store α) α) : UsePhase α × Cached (Store α) α :=
  let go (now : UsePhase α × Cached (Store α) α) := (u.next now.2 now.1).getD now
  go (go (go (go (.started, s))))

lemma alone_get (s : Cached (Store α) α) (id : RunId) :
    alone (.get id) s = (.gave (s.get Store.repository id).1, (s.get Store.repository id).2) := by
  rcases hcopy : s.copies.get? id with _ | r
  · rcases hget : s.inner.runs.get? id with _ | r <;>
      simp [alone, CacheUse.next, Cached.get, Store.repository, hcopy, hget]
  · simp [alone, CacheUse.next, Cached.get, hcopy]

lemma alone_buffer (s : Cached (Store α) α) (r : Run α) :
    alone (.buffer r) s =
      (.ended (s.buffer Store.repository r).1, (s.buffer Store.repository r).2) := by
  rcases hget : s.inner.runs.get? r.id with _ | r'
  · simp [alone, CacheUse.next, Cached.buffer, Store.repository, Store.buffer_of_missing hget]
  · simp [alone, CacheUse.next, Cached.buffer, Store.repository, Store.buffer_eq hget]

end SharedCache

/-! ### What a history says -/

namespace CacheHistory

variable {α : Type}

/-- At time `t` a run was written into the store. -/
def Wrote (past : List (Mark α)) (t : Nat) (r : Run α) : Prop :=
  ∃ k, past[t]? = some ⟨k, .buffer r, .wrote (.ok ())⟩

/-- What was found is a run that was written at time `t` or later. -/
def Since (past : List (Mark α)) (t : Nat) (id : RunId) (found : Option (Run α)) : Prop :=
  ∃ t' r, t ≤ t' ∧ Wrote past t' r ∧ r.id = id ∧ found = some r

/-- What was found is not older than any write. -/
def UpToDate (past : List (Mark α)) (id : RunId) (found : Option (Run α)) : Prop :=
  ∀ t r, Wrote past t r → r.id = id → Since past t id found

/-- At time `t` a copy of a run was put into the cache. -/
def Kept (past : List (Mark α)) (t : Nat) (id : RunId) (r : Run α) : Prop :=
  ∃ k u, past[t]? = some ⟨k, u, .kept r⟩ ∧ u.run = id

/-- A run is the one whose copy was put into the cache last. -/
def LastKept (past : List (Mark α)) (id : RunId) (r : Run α) : Prop :=
  ∃ t, Kept past t id r ∧ ∀ t' r', Kept past t' id r' → t' ≤ t

/-- At time `t` a use had its run from the store, or put it there. -/
def Touched (past : List (Mark α)) (t k : Nat) (r : Run α) : CacheUse α → Prop
  | .get id => past[t]? = some ⟨k, .get id, .read (.ok (some r))⟩
  | .buffer r' => r' = r ∧ past[t]? = some ⟨k, .buffer r', .wrote (.ok ())⟩

/-- What must have happened before a mark. -/
def Justified (past : List (Mark α)) (mark : Mark α) : Prop :=
  match mark.phase with
  | .started => ∀ earlier ∈ past, earlier.use ≠ mark.use
  | .hit r => LastKept past mark.call.run r
  | .read answer => ∃ found, answer = .ok found ∧ UpToDate past mark.call.run found
  | .kept r => ∃ t, Touched past t mark.use r mark.call
  | .gave answer =>
    ∃ t : Nat, past[t]? = some { mark with phase := .read answer } ∨
      ∃ r, answer = .ok (some r) ∧ past[t]? = some { mark with phase := .hit r }
  | .ended (.ok ()) => ∃ (t : Nat) (r : Run α), past[t]? = some { mark with phase := .kept r }
  | _ => True

/-- All that is in a history is justified by what was before it. -/
def Sound (history : List (Mark α)) : Prop :=
  ∀ t mark, history[t]? = some mark → Justified (history.take t) mark

variable {past history : List (Mark α)} {mark : Mark α} {t k : Nat} {id : RunId} {r : Run α}
  {found : Option (Run α)}

lemma getElem?_append_singleton {β : Type} {l : List β} {x y : β} {i : Nat} :
    (l ++ [x])[i]? = some y ↔ l[i]? = some y ∨ i = l.length ∧ x = y := by
  rcases Nat.lt_trichotomy i l.length with h | rfl | h
  · simp [List.getElem?_append_left h, h.ne]
  · simp
  · simp [List.getElem?_append_right h.le, h.ne', List.getElem?_eq_none h.le,
      Nat.sub_ne_zero_of_lt h]

lemma le_length_of_getElem?_append_singleton {β : Type} {l : List β} {x y : β} {i : Nat}
    (h : (l ++ [x])[i]? = some y) : i ≤ l.length := by
  rcases getElem?_append_singleton.mp h with h | ⟨rfl, -⟩
  · exact (List.getElem?_eq_some_iff.mp h).1.le
  · exact le_rfl

lemma getElem?_take_eq_some {β : Type} {l : List β} {y : β} {i j : Nat} :
    (l.take i)[j]? = some y ↔ j < i ∧ l[j]? = some y := by
  rw [List.getElem?_take]
  split <;> simp [*]

lemma Sound.append (h : Sound history) (hmark : Justified history mark) :
    Sound (history ++ [mark]) := by
  intro t mark' ht
  rcases getElem?_append_singleton.mp ht with ht | ⟨rfl, rfl⟩
  · rw [List.take_append_of_le_length (List.getElem?_eq_some_iff.mp ht).1.le]
    exact h t mark' ht
  · rwa [List.take_left]

lemma Wrote.append (h : Wrote past t r) : Wrote (past ++ [mark]) t r := by
  obtain ⟨k, hk⟩ := h
  exact ⟨k, getElem?_append_singleton.mpr (.inl hk)⟩

lemma Since.append (h : Since past t id found) : Since (past ++ [mark]) t id found := by
  obtain ⟨t', r, hle, hwrote, hid, hfound⟩ := h
  exact ⟨t', r, hle, hwrote.append, hid, hfound⟩

/-- What is up to date stays so until the run is written again. -/
lemma UpToDate.append (h : UpToDate past id found)
    (hother : ∀ r, mark.call = .buffer r → mark.phase = .wrote (.ok ()) → r.id ≠ id) :
    UpToDate (past ++ [mark]) id found := by
  rintro t r ⟨k, hk⟩ hid
  rcases getElem?_append_singleton.mp hk with hk | ⟨rfl, rfl⟩
  · exact (h t r ⟨k, hk⟩ hid).append
  · exact absurd hid (hother r rfl rfl)

/-- A run that is written is up to date. -/
lemma UpToDate.wrote (past : List (Mark α)) (k : Nat) (r : Run α) :
    UpToDate (past ++ [⟨k, .buffer r, .wrote (.ok ())⟩]) r.id (some r) := by
  rintro t r' ⟨k', hk'⟩ hid
  have hlast : Wrote (past ++ [⟨k, .buffer r, .wrote (.ok ())⟩]) past.length r :=
    ⟨k, getElem?_append_singleton.mpr (.inr ⟨rfl, rfl⟩)⟩
  exact ⟨past.length, r, le_length_of_getElem?_append_singleton hk', hlast, rfl, rfl⟩

/-- The copy that was kept last stays so until the run is copied again. -/
lemma LastKept.append (h : LastKept past id r)
    (hother : ∀ r, mark.phase = .kept r → mark.call.run ≠ id) :
    LastKept (past ++ [mark]) id r := by
  obtain ⟨t, ⟨k, u, hk, hu⟩, hlast⟩ := h
  refine ⟨t, ⟨k, u, getElem?_append_singleton.mpr (.inl hk), hu⟩, ?_⟩
  rintro t' r' ⟨k', u', hk', hu'⟩
  rcases getElem?_append_singleton.mp hk' with hk' | ⟨rfl, rfl⟩
  · exact hlast t' r' ⟨k', u', hk', hu'⟩
  · exact absurd hu' (hother r' rfl)

lemma LastKept.kept (past : List (Mark α)) (k : Nat) (u : CacheUse α) (r : Run α) :
    LastKept (past ++ [⟨k, u, .kept r⟩]) u.run r := by
  refine ⟨past.length, ⟨k, u, getElem?_append_singleton.mpr (.inr ⟨rfl, rfl⟩), rfl⟩, ?_⟩
  rintro t' r' ⟨k', u', hk', -⟩
  exact le_length_of_getElem?_append_singleton hk'

end CacheHistory

/-! ### What every move keeps -/

namespace SharedCache

open CacheHistory

variable {α : Type}

/-- The store and the cache are what the history says. -/
structure Consistent (m : SharedCache α) : Prop where
  sound : Sound m.history
  reached : ∀ (k : Nat) (u : CacheUse α) (phase : UsePhase α), m.uses[k]? = some (u, phase) →
    ∃ t : Nat, m.history[t]? = some ⟨k, u, phase⟩
  known : ∀ mark ∈ m.history, mark.use < m.uses.length
  stored : ∀ id, UpToDate m.history id (m.cached.inner.runs.get? id)
  copies : ∀ id r, m.cached.copies.get? id = some r → LastKept m.history id r

namespace Consistent

variable {m : SharedCache α} {k : Nat} {u : CacheUse α} {phase phase' : UsePhase α}
  {cached : Cached (Store α) α}

lemma start (s : Store α) : Consistent (start s) where
  sound t mark h := by simp [SharedCache.start] at h
  reached k u phase h := by simp [SharedCache.start] at h
  known mark h := by simp [SharedCache.start] at h
  stored id t r h := by simp [SharedCache.start, Wrote] at h
  copies id r h := by cases h

lemma begin (h : Consistent m) (u : CacheUse α) : Consistent (m.step (.start u)) where
  sound := h.sound.append fun earlier hearlier => (h.known earlier hearlier).ne
  reached k u' phase hk := by
    rcases getElem?_append_singleton.mp hk with hk | ⟨rfl, hu⟩
    · obtain ⟨t, ht⟩ := h.reached k u' phase hk
      exact ⟨t, getElem?_append_singleton.mpr (.inl ht)⟩
    · cases hu
      exact ⟨m.history.length, getElem?_append_singleton.mpr (.inr ⟨rfl, rfl⟩)⟩
  known := by
    simp only [step, List.length_append, List.length_singleton]
    rw [List.forall_mem_append, List.forall_mem_singleton]
    exact ⟨fun mark hmark => (h.known mark hmark).trans (Nat.lt_succ_self _), Nat.lt_succ_self _⟩
  stored id := (h.stored id).append nofun
  copies id r hcopy := (h.copies id r hcopy).append nofun

lemma expire (h : Consistent m) (id : RunId) : Consistent (m.step (.expire id)) where
  sound := h.sound
  reached := h.reached
  known := h.known
  stored := h.stored
  copies other r hcopy := by
    simp only [step, Cached.invalidate, RunTable.get?_erase] at hcopy
    split at hcopy
    · cases hcopy
    · exact h.copies other r hcopy

/-- A use reaches its next phase. -/
lemma mark (h : Consistent m) (huse : m.uses[k]? = some (u, phase))
    (hjustified : Justified m.history ⟨k, u, phase'⟩)
    (hstored : ∀ id, UpToDate (m.history ++ [⟨k, u, phase'⟩]) id (cached.inner.runs.get? id))
    (hcopies : ∀ id r, cached.copies.get? id = some r →
      LastKept (m.history ++ [⟨k, u, phase'⟩]) id r) :
    Consistent ⟨cached, m.uses.set k (u, phase'), m.history ++ [⟨k, u, phase'⟩]⟩ where
  sound := h.sound.append hjustified
  reached k' u' phase'' hk' := by
    rw [List.getElem?_set] at hk'
    split at hk'
    · rename_i heq
      subst heq
      split at hk'
      · cases hk'
        exact ⟨m.history.length, getElem?_append_singleton.mpr (.inr ⟨rfl, rfl⟩)⟩
      · cases hk'
    · obtain ⟨t, ht⟩ := h.reached k' u' phase'' hk'
      exact ⟨t, getElem?_append_singleton.mpr (.inl ht)⟩
  known := by
    simp only [List.length_set]
    rw [List.forall_mem_append, List.forall_mem_singleton]
    exact ⟨h.known, (List.getElem?_eq_some_iff.mp huse).1⟩
  stored := hstored
  copies := hcopies

/-- A phase in which neither the store nor the cache is changed. -/
lemma mark_idle (h : Consistent m) (huse : m.uses[k]? = some (u, phase))
    (hjustified : Justified m.history ⟨k, u, phase'⟩) (hwrote : phase' ≠ .wrote (.ok ()))
    (hkept : ∀ r, phase' ≠ .kept r) :
    Consistent ⟨m.cached, m.uses.set k (u, phase'), m.history ++ [⟨k, u, phase'⟩]⟩ :=
  h.mark huse hjustified (fun id => (h.stored id).append fun _ _ hphase => absurd hphase hwrote)
    fun id r hcopy => (h.copies id r hcopy).append fun r' hphase => absurd hphase (hkept r')

/-- A phase in which a copy is put into the cache. -/
lemma mark_kept (h : Consistent m) (huse : m.uses[k]? = some (u, phase)) {r : Run α} {t : Nat}
    (htouched : Touched m.history t k r u) :
    Consistent
      ⟨m.cached.keep u.run r, m.uses.set k (u, .kept r), m.history ++ [⟨k, u, .kept r⟩]⟩ := by
  refine h.mark huse ⟨t, htouched⟩ (fun id => (h.stored id).append nofun) fun id r' hcopy => ?_
  rw [Cached.keep, RunTable.get?_insert] at hcopy
  split at hcopy
  · rename_i heq
    subst heq
    cases hcopy
    exact .kept m.history k u r
  · rename_i hne
    exact (h.copies id r' hcopy).append fun _ _ => Ne.symm hne

lemma mark_wrote (h : Consistent m) {r : Run α} (huse : m.uses[k]? = some (.buffer r, phase)) :
    Consistent
      ⟨{ m.cached with inner := (m.cached.inner.buffer r).2 },
        m.uses.set k (.buffer r, .wrote (m.cached.inner.buffer r).1),
        m.history ++ [⟨k, .buffer r, .wrote (m.cached.inner.buffer r).1⟩]⟩ := by
  rcases hget : m.cached.inner.runs.get? r.id with _ | r'
  · rw [Store.buffer_of_missing hget]
    exact h.mark_idle huse trivial (by simp) (by simp)
  · rw [Store.buffer_eq hget]
    refine h.mark huse trivial (fun id => ?_) fun id r'' hcopy =>
      (h.copies id r'' hcopy).append (by simp)
    by_cases hid : r.id = id
    · subst hid
      rw [Store.get?_write_self]
      exact .wrote m.history k r
    · rw [Store.get?_write_ne _ (Ne.symm hid)]
      refine (h.stored id).append fun r'' hcall _ => ?_
      cases hcall
      exact hid

lemma mark_dropped (h : Consistent m) {r : Run α} (huse : m.uses[k]? = some (.buffer r, phase))
    (e : StoreError) :
    Consistent
      ⟨m.cached.invalidate r.id, m.uses.set k (.buffer r, .dropped e),
        m.history ++ [⟨k, .buffer r, .dropped e⟩]⟩ := by
  refine h.mark huse trivial (fun id => (h.stored id).append nofun) fun id r' hcopy => ?_
  rw [Cached.invalidate, RunTable.get?_erase] at hcopy
  split at hcopy
  · cases hcopy
  · exact (h.copies id r' hcopy).append nofun

lemma advance (h : Consistent m) (huse : m.uses[k]? = some (u, phase))
    (hnext : u.next m.cached phase = some (phase', cached)) :
    Consistent ⟨cached, m.uses.set k (u, phase'), m.history ++ [⟨k, u, phase'⟩]⟩ := by
  obtain ⟨t, ht⟩ := h.reached k u phase huse
  cases u with
  | get id =>
    cases phase with
    | started =>
      rcases hcopy : m.cached.copies.get? id with _ | r
      · simp only [CacheUse.next, hcopy, Option.some.injEq, Prod.mk.injEq] at hnext
        obtain ⟨rfl, rfl⟩ := hnext
        exact h.mark_idle huse trivial nofun nofun
      · simp only [CacheUse.next, hcopy, Option.some.injEq, Prod.mk.injEq] at hnext
        obtain ⟨rfl, rfl⟩ := hnext
        exact h.mark_idle huse (h.copies id r hcopy) nofun nofun
    | hit r =>
      cases hnext
      exact h.mark_idle huse ⟨t, .inr ⟨r, rfl, ht⟩⟩ nofun nofun
    | missed =>
      cases hnext
      exact h.mark_idle huse ⟨_, rfl, h.stored id⟩ nofun nofun
    | read answer =>
      rcases answer with e | _ | r
      · cases hnext
        exact h.mark_idle huse ⟨t, .inl ht⟩ nofun nofun
      · cases hnext
        exact h.mark_idle huse ⟨t, .inl ht⟩ nofun nofun
      · cases hnext
        exact h.mark_kept huse ht
    | kept r =>
      cases hnext
      obtain ⟨t', htouched⟩ := h.sound t _ ht
      exact h.mark_idle huse ⟨t', .inl (getElem?_take_eq_some.mp htouched).2⟩ nofun nofun
    | wrote outcome => cases hnext
    | dropped e => cases hnext
    | gave answer => cases hnext
    | ended outcome => cases hnext
  | buffer r =>
    cases phase with
    | started =>
      cases hnext
      exact h.mark_wrote huse
    | wrote outcome =>
      rcases outcome with e | _
      · cases hnext
        exact h.mark_dropped huse e
      · cases hnext
        exact h.mark_kept huse ⟨rfl, ht⟩
    | kept r' =>
      cases hnext
      exact h.mark_idle huse ⟨t, r', ht⟩ nofun nofun
    | dropped e =>
      cases hnext
      exact h.mark_idle huse trivial nofun nofun
    | hit r' => cases hnext
    | missed => cases hnext
    | read answer => cases hnext
    | gave answer => cases hnext
    | ended outcome => cases hnext

lemma step (h : Consistent m) (e : CacheMove α) : Consistent (m.step e) := by
  cases e with
  | start u => exact h.begin u
  | advance k =>
    simp only [SharedCache.step]
    split
    · exact h
    · rename_i huse
      split
      · exact h
      · rename_i hnext
        exact h.advance huse hnext
  | expire id => exact h.expire id

lemma after (s : Store α) (moves : List (CacheMove α)) :
    Consistent ((SharedCache.start s).after moves) := by
  induction moves using List.reverseRecOn with
  | nil => exact start s
  | append_singleton moves e ih =>
    rw [after_append_singleton]
    exact ih.step e

end Consistent

end SharedCache

/-! ### Fresh answers -/

namespace CacheHistory

variable {α : Type}

/-- A use of the same run was at the store before use `b` wrote there, and puts its copy into the
cache after use `b` has put its own there. -/
def Overtaken (history : List (Mark α)) (b : Nat) : Prop :=
  ∃ (r r' : Run α) (k : Nat) (u : CacheUse α) (s t₀ t t' : Nat),
    u.run = r.id ∧ s < t₀ ∧ Touched history s k r' u ∧
      history[t₀]? = some ⟨b, .buffer r, .wrote (.ok ())⟩ ∧ t < t' ∧
      history[t]? = some ⟨b, .buffer r, .kept r⟩ ∧ history[t']? = some ⟨k, u, .kept r'⟩

/-- If use `b` writes a run at time `t₀` and returns at time `t₁`, then every read of that run that
starts later gives it, or one that was written after it. -/
def Fresh (history : List (Mark α)) (b : Nat) : Prop :=
  ∀ (r : Run α) (t₀ t₁ : Nat), history[t₀]? = some ⟨b, .buffer r, .wrote (.ok ())⟩ → t₀ < t₁ →
    history[t₁]? = some ⟨b, .buffer r, .ended (.ok ())⟩ →
    ∀ (g t₂ t₃ : Nat) (answer : Except StoreError (Option (Run α))), t₁ < t₂ →
      history[t₂]? = some ⟨g, .get r.id, .started⟩ →
      history[t₃]? = some ⟨g, .get r.id, .gave answer⟩ →
      ∃ found, answer = .ok found ∧ Since history t₀ r.id found

variable {history : List (Mark α)} {b g k t : Nat} {id : RunId} {r : Run α}

lemma touched_take {j : Nat} {u : CacheUse α} :
    Touched (history.take j) t k r u ↔ t < j ∧ Touched history t k r u := by
  cases u with
  | get id => exact getElem?_take_eq_some
  | buffer r' =>
    rw [Touched, getElem?_take_eq_some]
    exact and_left_comm

lemma Since.of_take {j : Nat} {found : Option (Run α)} (h : Since (history.take j) t id found) :
    Since history t id found := by
  obtain ⟨t', r, hle, ⟨k, hk⟩, hid, hfound⟩ := h
  exact ⟨t', r, hle, ⟨k, (getElem?_take_eq_some.mp hk).2⟩, hid, hfound⟩

namespace Sound

/-- What a use does comes after its start. -/
lemma le_of_started (h : Sound history) {u : CacheUse α} {t₂ : Nat}
    (hstarted : history[t₂]? = some ⟨g, u, .started⟩) {mark : Mark α}
    (hmark : history[t]? = some mark) (huse : mark.use = g) : t₂ ≤ t := by
  by_contra! hlt
  exact h t₂ _ hstarted mark
    (List.mem_of_getElem? (getElem?_take_eq_some.mpr ⟨hlt, hmark⟩)) huse

/-- A write has put its run into the cache before it returns. -/
lemma exists_kept (h : Sound history) {t₁ : Nat}
    (hended : history[t₁]? = some ⟨b, .buffer r, .ended (.ok ())⟩) :
    ∃ t < t₁, history[t]? = some ⟨b, .buffer r, .kept r⟩ := by
  obtain ⟨t, r', hkept⟩ := h t₁ _ hended
  obtain ⟨hlt, hkept⟩ := getElem?_take_eq_some.mp hkept
  obtain ⟨-, rfl, -⟩ := h t _ hkept
  exact ⟨t, hlt, hkept⟩

/-- The store answers a read with what was written last. -/
lemma since_of_read (h : Sound history) {u : CacheUse α}
    {answer : Except StoreError (Option (Run α))} {t₀ : Nat}
    (hread : history[t]? = some ⟨k, u, .read answer⟩)
    (hwrote : history[t₀]? = some ⟨b, .buffer r, .wrote (.ok ())⟩) (hlt : t₀ < t)
    (hid : r.id = u.run) : ∃ found, answer = .ok found ∧ Since history t₀ u.run found := by
  obtain ⟨found, rfl, huptodate⟩ := h t _ hread
  have hpast : Wrote (history.take t) t₀ r := ⟨b, getElem?_take_eq_some.mpr ⟨hlt, hwrote⟩⟩
  exact ⟨found, rfl, (huptodate t₀ r hpast hid).of_take⟩

/-- A use that was at the store after a run was written there holds that run, or a newer one. -/
lemma since_of_touched (h : Sound history) {u : CacheUse α} {r' : Run α} {s t₀ : Nat}
    (htouched : Touched history s k r' u)
    (hwrote : history[t₀]? = some ⟨b, .buffer r, .wrote (.ok ())⟩) (hle : t₀ ≤ s)
    (hid : r.id = u.run) : Since history t₀ r.id (some r') := by
  cases u with
  | get id =>
    have hne : t₀ ≠ s := by
      rintro rfl
      cases hwrote.symm.trans htouched
    obtain ⟨found, hfound, hsince⟩ := h.since_of_read htouched hwrote (hle.lt_of_ne hne) hid
    cases hfound
    exact hid ▸ hsince
  | buffer r'' =>
    obtain ⟨rfl, htouched⟩ := htouched
    exact ⟨s, r'', hle, ⟨k, htouched⟩, hid.symm, rfl⟩

end Sound

end CacheHistory

namespace SharedCache

open CacheHistory

variable {α : Type}

/-- However reads and writes overlap, a write that is not overtaken is seen by every read that
starts after it has returned. -/
theorem fresh_of_not_overtaken (s : Store α) (moves : List (CacheMove α)) (b : Nat)
    (hovertaken : ¬ Overtaken ((start s).after moves).history b) :
    Fresh ((start s).after moves).history b := by
  have h := (Consistent.after s moves).sound
  intro r t₀ t₁ hwrote h₀₁ hended g t₂ t₃ answer h₁₂ hstarted hgave
  obtain ⟨tb, hb₁, hb⟩ := h.exists_kept hended
  obtain ⟨t, hanswer⟩ := h t₃ _ hgave
  rcases hanswer with hread | ⟨r', rfl, hhit⟩
  · -- It has missed, and was at the store after the write.
    obtain ⟨-, hread⟩ := getElem?_take_eq_some.mp hread
    have h₂ := h.le_of_started hstarted hread rfl
    exact h.since_of_read hread hwrote (by omega) rfl
  · -- It has found the copy that was kept last, so that of the write or a later one.
    obtain ⟨-, hhit⟩ := getElem?_take_eq_some.mp hhit
    have h₂ := h.le_of_started hstarted hhit rfl
    obtain ⟨tk, ⟨k, u, hk, hu⟩, hlast⟩ := h t _ hhit
    obtain ⟨-, hk⟩ := getElem?_take_eq_some.mp hk
    have hle : tb ≤ tk :=
      hlast tb r ⟨b, .buffer r, getElem?_take_eq_some.mpr ⟨by omega, hb⟩, rfl⟩
    refine ⟨some r', rfl, ?_⟩
    rcases hle.eq_or_lt with rfl | hlt
    · cases hb.symm.trans hk
      exact ⟨t₀, r, le_rfl, ⟨b, hwrote⟩, rfl, rfl⟩
    · obtain ⟨u₀, htouched⟩ := h tk _ hk
      obtain ⟨-, htouched⟩ := touched_take.mp htouched
      have hafter : t₀ ≤ u₀ := by
        by_contra! hbefore
        exact hovertaken ⟨r, r', k, u, u₀, t₀, tb, tk, hu, hbefore, htouched, hwrote, hlt, hb, hk⟩
      exact h.since_of_touched htouched hwrote hafter hu.symm

/-- A read that has missed before the small run is ended by a write may still go to the store and
fill the cache in time. -/
theorem fresh_of_not_overtaken_small :
    let history := ((start Store.small).after
      [.start (.buffer Run.small.finish), .start (.get ⟨1⟩), .advance 1, .advance 0, .advance 1,
        .advance 1, .advance 0, .advance 0, .start (.get ⟨1⟩), .advance 2, .advance 2]).history
    ¬ Overtaken history 0 ∧ Fresh history 0 ∧
      history[10]? = some ⟨2, .get ⟨1⟩, .gave (.ok (some Run.small.finish))⟩ := by
  intro history
  have hkept (t k : Nat) (u : CacheUse Float) (r : Run Float)
      (h : history[t]? = some ⟨k, u, .kept r⟩) : t = 5 ∧ k = 1 ∨ t = 6 ∧ k = 0 := by
    have hall : ∀ i : Fin 11, history[i].phase.isKept →
        i.val = 5 ∧ history[i].use = 1 ∨ i.val = 6 ∧ history[i].use = 0 := by decide +kernel
    obtain ⟨hlt, hmark⟩ := List.getElem?_eq_some_iff.mp h
    have hcase := hall ⟨t, hlt⟩
    simp only [Fin.getElem_fin, hmark] at hcase
    exact hcase rfl
  have hovertaken : ¬ Overtaken history 0 := by
    rintro ⟨r, r', k, u, s, t₀, t, t', -, -, -, -, hlt, hb, hk⟩
    have ht := hkept t 0 _ r hb
    have ht' := hkept t' k u r' hk
    omega
  exact ⟨hovertaken, fresh_of_not_overtaken Store.small _ 0 hovertaken, rfl⟩

/-- A read misses and is answered by the store, the run is ended by a write that returns, and only
then the read fills the cache. The next read is given the run as it was before it was ended. -/
theorem stale_run_served :
    let history := ((start Store.small).after
      [.start (.get ⟨1⟩), .advance 0, .advance 0, .start (.buffer Run.small.finish), .advance 1,
        .advance 1, .advance 1, .advance 0, .advance 0, .start (.get ⟨1⟩), .advance 2,
        .advance 2]).history
    ¬ Fresh history 1 := by
  intro history hfresh
  have hwrites : history.filterMap Mark.written = [Run.small.finish] := rfl
  obtain ⟨found, hfound, t, r, -, ⟨k, hk⟩, -, hr⟩ := hfresh Run.small.finish 4 6 rfl (by decide) rfl
    2 9 11 (.ok (some Run.small)) (by decide) rfl rfl
  cases hfound
  cases hr
  have hmem : Run.small ∈ history.filterMap Mark.written :=
    List.mem_filterMap.mpr ⟨_, List.mem_of_getElem? hk, rfl⟩
  rw [hwrites, List.mem_singleton] at hmem
  have hfinished : Run.small.finished = Run.small.finish.finished := congrArg Run.finished hmem
  cases hfinished

end SharedCache

end PairedTuning
