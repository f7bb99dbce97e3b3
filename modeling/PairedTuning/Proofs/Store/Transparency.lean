import Mathlib
import PairedTuning.Proofs.Coordinator.Phases
import PairedTuning.Store.Cache

/-!
# The cache cannot be seen

Runs are used through a cache while copies expire at any moment and runs are changed behind it. As
long as a run that was changed behind its copy is not used before it is invalidated, everything is
as if there were no cache: every answer, and the store after every step.

`Coherent` carries this: except for the runs that are outdated in this sense, every copy is the run
that is stored.
-/

namespace PairedTuning

/-! ### What happens to a cache -/

/-- A use of a repository. -/
inductive Access (α : Type) where
  | call (c : Call)
  | get (id : RunId)
  | buffer (r : Run α)

inductive Reply (α : Type) where
  | answer (a : Answer α)
  | found (answer : Except StoreError (Option (Run α)))
  | buffered (answer : Except StoreError Unit)

namespace Access

variable {σ α : Type}

/-- The run that is used. -/
def run : Access α → RunId
  | call c => c.run
  | get id => id
  | buffer r => r.id

def perform [Scalar α] (repo : Repository σ α) (s : σ) : Access α → Reply α × σ
  | call c => (.answer (Coordinator.call repo s c).1, (Coordinator.call repo s c).2)
  | get id => (.found (repo.get s id).1, (repo.get s id).2)
  | buffer r => (.buffered (repo.buffer s r).1, (repo.buffer s r).2)

end Access

inductive CacheEvent (α : Type) where
  /-- The runs are used. If they are written to, some copies expire right before that. -/
  | access (a : Access α) (expired : List RunId)
  | invalidate (id : RunId)
  | invalidateAll
  /-- Copies expire, or make room for others. -/
  | expire (ids : List RunId)
  /-- A run is put into the store behind the cache. -/
  | insert (r : Run α)
  /-- A run is taken out of the store behind the cache. -/
  | remove (id : RunId)

namespace Store

variable {α : Type} [Scalar α]

/-- What happens to a store without a cache. -/
def step (s : Store α) : CacheEvent α → Option (Reply α) × Store α
  | .access a _ =>
    let (reply, s) := a.perform repository s
    (some reply, s)
  | .insert r => (none, s.insert r)
  | .remove id => (none, s.remove id)
  | _ => (none, s)

/-- The replies to a sequence of events, each with the store after it. -/
def replies (s : Store α) : List (CacheEvent α) → List (Option (Reply α) × Store α)
  | [] => []
  | e :: events => s.step e :: (s.step e).2.replies events

end Store

namespace Cached

variable {σ α : Type}

/-- Lose copies. -/
def expire (s : Cached σ α) (ids : List RunId) : Cached σ α := ids.foldl invalidate s

/-- A cached store in which copies expire before each write. -/
def expiring (expired : List RunId) : Repository (Cached (Store α) α) α where
  get := get Store.repository
  buffer s r := (s.expire expired).buffer Store.repository r

def step [Scalar α] (s : Cached (Store α) α) :
    CacheEvent α → Option (Reply α) × Cached (Store α) α
  | .access a expired =>
    let (reply, s) := a.perform (expiring expired) s
    (some reply, s)
  | .invalidate id => (none, s.invalidate id)
  | .invalidateAll => (none, s.invalidateAll)
  | .expire ids => (none, s.expire ids)
  | .insert r => (none, { s with inner := s.inner.insert r })
  | .remove id => (none, { s with inner := s.inner.remove id })

end Cached

/-- A cached store, with the runs that were changed behind their copies since these were last
invalidated. -/
structure WatchedCache (α : Type) where
  cached : Cached (Store α) α
  outdated : List RunId

namespace WatchedCache

variable {α : Type} [Scalar α]

/-- The outdated runs after a change behind the cache. -/
def outdate (m : WatchedCache α) (id : RunId) : List RunId :=
  if (m.cached.copies.get? id).isSome then id :: m.outdated else m.outdated

def step (m : WatchedCache α) (e : CacheEvent α) : WatchedCache α where
  cached := (m.cached.step e).2
  outdated :=
    match e with
    | .insert r => m.outdate r.id
    | .remove id => m.outdate id
    | .invalidate id => m.outdated.filter (· ≠ id)
    | .invalidateAll => []
    | _ => m.outdated

def after (m : WatchedCache α) (events : List (CacheEvent α)) : WatchedCache α :=
  events.foldl step m

/-- The replies to a sequence of events, each with the store behind the cache after it. -/
def replies (m : WatchedCache α) : List (CacheEvent α) → List (Option (Reply α) × Store α)
  | [] => []
  | e :: events =>
    ((m.cached.step e).1, (m.cached.step e).2.inner) :: (m.step e).replies events

/-- Whether no outdated run is used. -/
def allows (m : WatchedCache α) : CacheEvent α → Bool
  | .access a _ => a.run ∉ m.outdated
  | _ => true

/-- No outdated run is ever used. -/
def Disciplined (m : WatchedCache α) : List (CacheEvent α) → Prop
  | [] => True
  | e :: events => m.allows e ∧ (m.step e).Disciplined events

instance decidableDisciplined (m : WatchedCache α) :
    (events : List (CacheEvent α)) → Decidable (m.Disciplined events)
  | [] => isTrue trivial
  | e :: events =>
    have := decidableDisciplined (m.step e) events
    inferInstanceAs (Decidable (_ ∧ _))

end WatchedCache

/-! ### Coherence -/

namespace Cached

variable {α : Type}

/-- Every copy is the run that is stored, except for the outdated runs. -/
structure Coherent (outdated : List RunId) (s : Cached (Store α) α) : Prop where
  filed : s.inner.Filed
  copies : ∀ id ∉ outdated, ∀ r, s.copies.get? id = some r → s.inner.runs.get? id = some r

lemma copies_expire {s : Cached (Store α) α} {ids : List RunId} {id : RunId} {r : Run α}
    (h : (s.expire ids).copies.get? id = some r) : s.copies.get? id = some r := by
  induction ids generalizing s with
  | nil => exact h
  | cons lost ids ih =>
    have hcopy := ih (s := s.invalidate lost) h
    rw [invalidate, RunTable.get?_erase] at hcopy
    split at hcopy
    · cases hcopy
    · exact hcopy

lemma inner_expire (s : Cached (Store α) α) (ids : List RunId) :
    (s.expire ids).inner = s.inner := by
  induction ids generalizing s with
  | nil => rfl
  | cons lost ids ih => exact ih (s.invalidate lost)

namespace Coherent

variable {outdated : List RunId} {s : Cached (Store α) α}

lemma ofInner {s : Store α} (hs : s.Filed) (outdated : List RunId) :
    Coherent outdated (ofInner s) where
  filed := hs
  copies id _ r h := by cases h

/-! #### Copies that go -/

lemma expire (h : Coherent outdated s) (ids : List RunId) : Coherent outdated (s.expire ids) where
  filed := by
    rw [inner_expire]
    exact h.filed
  copies id hid r hcopy := by
    rw [inner_expire]
    exact h.copies id hid r (copies_expire hcopy)

lemma invalidate (h : Coherent outdated s) (id : RunId) :
    Coherent (outdated.filter (· ≠ id)) (s.invalidate id) where
  filed := h.filed
  copies other hother r hcopy := by
    rw [Cached.invalidate, RunTable.get?_erase] at hcopy
    split at hcopy
    · cases hcopy
    · rename_i hne
      refine h.copies other (fun hmem => hother ?_) r hcopy
      exact List.mem_filter.mpr ⟨hmem, by simpa using hne⟩

lemma invalidateAll (h : Coherent outdated s) : Coherent [] s.invalidateAll where
  filed := h.filed
  copies id _ r hcopy := by cases hcopy

/-! #### Changes behind the cache -/

/-- A change behind the cache is to one run, which becomes outdated if it has a copy. -/
lemma change (h : Coherent outdated s) {inner : Store α} (hfiled : inner.Filed) {id : RunId}
    (hinner : ∀ other ≠ id, inner.runs.get? other = s.inner.runs.get? other) :
    Coherent ((WatchedCache.mk s outdated).outdate id) { s with inner } where
  filed := hfiled
  copies other hother r hcopy := by
    have hne : other ≠ id := by
      rintro rfl
      simp only [WatchedCache.outdate, hcopy, Option.isSome_some, if_true] at hother
      exact hother List.mem_cons_self
    rw [hinner other hne]
    refine h.copies other (fun hmem => hother ?_) r hcopy
    rw [WatchedCache.outdate]
    split
    · exact List.mem_cons_of_mem id hmem
    · exact hmem

lemma insert (h : Coherent outdated s) (r : Run α) :
    Coherent ((WatchedCache.mk s outdated).outdate r.id) { s with inner := s.inner.insert r } :=
  h.change (h.filed.insert r) fun other hne => by simp [Store.insert, hne]

lemma remove (h : Coherent outdated s) (id : RunId) :
    Coherent ((WatchedCache.mk s outdated).outdate id) { s with inner := s.inner.remove id } :=
  h.change (h.filed.remove id) fun other hne => by simp [Store.remove, hne]

/-! #### Uses -/

/-- A run that is not outdated is read as it is stored. -/
lemma get (h : Coherent outdated s) {id : RunId} (hid : id ∉ outdated) :
    (s.get Store.repository id).1 = .ok (s.inner.runs.get? id) ∧
      (s.get Store.repository id).2.inner = s.inner ∧
      Coherent outdated (s.get Store.repository id).2 := by
  rcases hcopy : s.copies.get? id with _ | r
  · rcases hget : s.inner.runs.get? id with _ | r
    · simp only [Cached.get, hcopy, Store.repository, hget]
      exact ⟨trivial, trivial, h⟩
    · simp only [Cached.get, hcopy, Store.repository, hget]
      refine ⟨trivial, rfl, h.filed, fun other hother r' hcopy' => ?_⟩
      rw [keep, RunTable.get?_insert] at hcopy'
      split at hcopy'
      · subst other
        cases hcopy'
        exact hget
      · exact h.copies other hother r' hcopy'
  · simp only [Cached.get, hcopy, h.copies id hid r hcopy]
    exact ⟨trivial, trivial, h⟩

/-- A run is written as if there were no cache, also when it is outdated. -/
lemma buffer (h : Coherent outdated s) (r : Run α) :
    (s.buffer Store.repository r).1 = (s.inner.buffer r).1 ∧
      (s.buffer Store.repository r).2.inner = (s.inner.buffer r).2 ∧
      Coherent outdated (s.buffer Store.repository r).2 := by
  rcases hget : s.inner.runs.get? r.id with _ | r₀
  · simp only [Cached.buffer, Store.repository, Store.buffer_of_missing hget]
    refine ⟨trivial, rfl, h.filed, fun other hother r' hcopy => ?_⟩
    refine (h.invalidate r.id).copies other (fun hmem => hother ?_) r' hcopy
    exact List.mem_of_mem_filter hmem
  · simp only [Cached.buffer, Store.repository, Store.buffer_eq hget]
    refine ⟨trivial, rfl, h.filed.write r, fun other hother r' hcopy => ?_⟩
    rw [keep, RunTable.get?_insert] at hcopy
    split at hcopy
    · subst other
      cases hcopy
      exact s.inner.get?_write_self r
    · rename_i hne
      exact (s.inner.get?_write_ne hne).trans (h.copies other hother r' hcopy)

lemma buffer_expiring (h : Coherent outdated s) (expired : List RunId) (r : Run α) :
    ((expiring expired).buffer s r).1 = (s.inner.buffer r).1 ∧
      ((expiring expired).buffer s r).2.inner = (s.inner.buffer r).2 ∧
      Coherent outdated ((expiring expired).buffer s r).2 := by
  have hbuffer := (h.expire expired).buffer r
  rwa [inner_expire] at hbuffer

variable [Scalar α]

lemma call (h : Coherent outdated s) {c : Call} (hrun : c.run ∉ outdated) (expired : List RunId) :
    (Coordinator.call (expiring expired) s c).1 =
        (Coordinator.call Store.repository s.inner c).1 ∧
      (Coordinator.call (expiring expired) s c).2.inner =
        (Coordinator.call Store.repository s.inner c).2 ∧
      Coherent outdated (Coordinator.call (expiring expired) s c).2 := by
  rcases hlock : c.takesLock
  · obtain ⟨a, ha⟩ := Coordinator.call_of_not_takesLock (α := α) hlock
    rw [ha, ha]
    exact ⟨rfl, rfl, h⟩
  · obtain ⟨hanswer, hinner, hcoherent⟩ := h.get hrun
    replace hanswer : ((expiring expired).get s c.run).1 =
      (Store.repository.get s.inner c.run).1 := hanswer
    rw [Coordinator.call_eq_phases _ _ hlock, Coordinator.call_eq_phases _ _ hlock, hanswer]
    rcases c.decide (Store.repository.get s.inner c.run).1 with a | ⟨r, success, failure⟩
    · exact ⟨rfl, hinner, hcoherent⟩
    · obtain ⟨houtcome, hwritten, hkept⟩ := hcoherent.buffer_expiring expired r
      rw [hinner] at houtcome hwritten
      exact ⟨congrArg (Answer.ofWrite success failure) houtcome, hwritten, hkept⟩

lemma perform (h : Coherent outdated s) {a : Access α} (hrun : a.run ∉ outdated)
    (expired : List RunId) :
    (a.perform (expiring expired) s).1 = (a.perform Store.repository s.inner).1 ∧
      (a.perform (expiring expired) s).2.inner = (a.perform Store.repository s.inner).2 ∧
      Coherent outdated (a.perform (expiring expired) s).2 := by
  cases a with
  | call c =>
    obtain ⟨hanswer, hinner, hcoherent⟩ := h.call hrun expired
    exact ⟨congrArg Reply.answer hanswer, hinner, hcoherent⟩
  | get id =>
    obtain ⟨hanswer, hinner, hcoherent⟩ := h.get hrun
    exact ⟨congrArg Reply.found hanswer, hinner, hcoherent⟩
  | buffer r =>
    obtain ⟨hanswer, hinner, hcoherent⟩ := h.buffer_expiring expired r
    exact ⟨congrArg Reply.buffered hanswer, hinner, hcoherent⟩

end Coherent

end Cached

/-! ### Transparency -/

namespace WatchedCache

variable {α : Type} [Scalar α] {m : WatchedCache α}

/-- Every event is answered as without the cache, and keeps the copies coherent. -/
lemma step_coherent (h : m.cached.Coherent m.outdated) {e : CacheEvent α}
    (hallows : m.allows e) :
    ((m.cached.step e).1, (m.cached.step e).2.inner) = m.cached.inner.step e ∧
      (m.step e).cached.Coherent (m.step e).outdated := by
  cases e with
  | access a expired =>
    obtain ⟨hreply, hinner, hcoherent⟩ := h.perform (of_decide_eq_true hallows) expired
    exact ⟨Prod.ext (congrArg some hreply) hinner, hcoherent⟩
  | invalidate id => exact ⟨rfl, h.invalidate id⟩
  | invalidateAll => exact ⟨rfl, h.invalidateAll⟩
  | expire ids => exact ⟨Prod.ext rfl (Cached.inner_expire m.cached ids), h.expire ids⟩
  | insert r => exact ⟨rfl, h.insert r⟩
  | remove id => exact ⟨rfl, h.remove id⟩

lemma Disciplined.of_append {earlier later : List (CacheEvent α)}
    (h : m.Disciplined (earlier ++ later)) : m.Disciplined earlier := by
  induction earlier generalizing m with
  | nil => trivial
  | cons e earlier ih => exact ⟨h.1, ih h.2⟩

lemma replies_eq (h : m.cached.Coherent m.outdated) {events : List (CacheEvent α)}
    (hdisciplined : m.Disciplined events) :
    m.replies events = m.cached.inner.replies events ∧
      (m.after events).cached.Coherent (m.after events).outdated := by
  induction events generalizing m with
  | nil => exact ⟨rfl, h⟩
  | cons e events ih =>
    obtain ⟨hallows, hrest⟩ := hdisciplined
    obtain ⟨hreply, hcoherent⟩ := step_coherent h hallows
    obtain ⟨hreplies, hafter⟩ := ih hcoherent hrest
    have hinner : (m.step e).cached.inner = (m.cached.inner.step e).2 := congrArg Prod.snd hreply
    rw [replies, Store.replies, hreply, hreplies, hinner]
    exact ⟨rfl, hafter⟩

/-- If no run is used between a change behind its copy and the next invalidation, then a store
behind a cache replies to every event as the store alone does, and is the same after it. All the
time every copy is the run that is stored, but for the runs with such a change. -/
theorem cache_transparent {s : Store α} (hs : s.Filed) {events : List (CacheEvent α)}
    (hdisciplined : (WatchedCache.mk (.ofInner s) []).Disciplined events) :
    (WatchedCache.mk (.ofInner s) []).replies events = s.replies events ∧
      ∀ earlier later, events = earlier ++ later →
        let m := (WatchedCache.mk (.ofInner s) []).after earlier
        m.cached.Coherent m.outdated := by
  have hcoherent : (WatchedCache.mk (.ofInner s) []).cached.Coherent [] := .ofInner hs []
  refine ⟨(replies_eq hcoherent hdisciplined).1, ?_⟩
  rintro earlier later rfl
  exact (replies_eq hcoherent hdisciplined.of_append).2

/-- The small run is read, ended behind its copy, invalidated, reported on, written back, and in the
end taken out of the store. -/
theorem cache_transparent_small :
    let m : WatchedCache Float := ⟨.ofInner Store.small, []⟩
    let report : Report := ⟨4, 1, 1, 6, none⟩
    let events : List (CacheEvent Float) :=
      [.access (.get ⟨1⟩) [], .insert Run.small.finish, .expire [⟨2⟩], .invalidate ⟨1⟩,
        .access (.call (.report true ⟨1⟩ 0 report)) [⟨1⟩], .access (.buffer Run.small) [⟨1⟩],
        .remove ⟨1⟩, .invalidateAll, .access (.buffer Run.small) [],
        .access (.call (.state ⟨1⟩)) []]
    Store.small.Filed ∧ m.Disciplined events ∧ m.replies events = Store.small.replies events ∧
      (m.after (events.take 3)).outdated = [⟨1⟩] := by
  intro m report events
  have hdisciplined : m.Disciplined events := by decide +kernel
  exact ⟨Store.filed_small, hdisciplined,
    (cache_transparent Store.filed_small hdisciplined).1, by decide +kernel⟩

end WatchedCache

end PairedTuning
