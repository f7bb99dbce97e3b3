import Mathlib

/-!
# Computations that may fail

What the steps of a computation have answered if the whole of it has an answer, and where it stopped
if it has none.
-/

namespace PairedTuning

variable {ε α β : Type}

lemma bind_eq_ok_iff {x : Except ε α} {f : α → Except ε β} {b : β} :
    x >>= f = .ok b ↔ ∃ a, x = .ok a ∧ f a = .ok b := by
  cases x with
  | error e => simp [bind, Except.bind]
  | ok a => simp [bind, Except.bind]

lemma bind_eq_error_iff {x : Except ε α} {f : α → Except ε β} {e : ε} :
    x >>= f = .error e ↔ x = .error e ∨ ∃ a, x = .ok a ∧ f a = .error e := by
  cases x with
  | error e' => simp [bind, Except.bind]
  | ok a => simp [bind, Except.bind]

lemma map_eq_ok_iff {x : Except ε α} {f : α → β} {b : β} :
    f <$> x = .ok b ↔ ∃ a, x = .ok a ∧ f a = b := by
  cases x with
  | error e => simp [Functor.map, Except.map]
  | ok a => simp [Functor.map, Except.map]

lemma map_eq_error_iff {x : Except ε α} {f : α → β} {e : ε} :
    f <$> x = .error e ↔ x = .error e := by
  cases x with
  | error e' => simp [Functor.map, Except.map]
  | ok a => simp [Functor.map, Except.map]

lemma pure_eq_ok_iff {a b : α} : (pure a : Except ε α) = .ok b ↔ a = b := by
  simp [pure, Except.pure]

/-- A step that refuses on a condition is passed exactly if the condition does not hold. -/
lemma refuse_bind_eq_ok_iff {p : Prop} [Decidable p] {e : ε} {f : α → Except ε β}
    {x : Except ε β} {b : β} :
    (if p then throw e >>= f else x) = .ok b ↔ ¬ p ∧ x = .ok b := by
  by_cases hp : p
  · simp [hp, throw, throwThe, MonadExceptOf.throw, bind, Except.bind]
  · simp [hp]

lemma refuse_eq_ok_iff {p : Prop} [Decidable p] {e : ε} {x : Except ε β} {b : β} :
    (if p then throw e else x) = .ok b ↔ ¬ p ∧ x = .ok b := by
  by_cases hp : p
  · simp [hp, throw, throwThe, MonadExceptOf.throw]
  · simp [hp]

/-- A list of checks passes exactly if every one of them does. -/
lemma forM_eq_ok_iff {f : α → Except ε Unit} {xs : List α} :
    xs.forM f = .ok () ↔ ∀ x ∈ xs, f x = .ok () := by
  induction xs with
  | nil => simp [pure, Except.pure]
  | cons x xs ih =>
    have hcons : (x :: xs).forM f = (f x >>= fun _ => xs.forM f) := rfl
    rw [hcons, bind_eq_ok_iff, ih, List.forall_mem_cons]
    exact ⟨fun ⟨_, h⟩ => h, fun h => ⟨(), h⟩⟩

lemma forM_congr {f g : α → Except ε Unit} {xs : List α} (h : ∀ x ∈ xs, f x = g x) :
    xs.forM f = xs.forM g := by
  induction xs with
  | nil => rfl
  | cons x xs ih =>
    obtain ⟨hx, hxs⟩ := List.forall_mem_cons.mp h
    show (f x >>= fun _ => xs.forM f) = (g x >>= fun _ => xs.forM g)
    rw [hx, ih hxs]

/-- The members of a list are mapped one for one. -/
lemma mapM_eq_ok_iff {f : α → Except ε β} {xs : List α} {ys : List β} :
    xs.mapM f = .ok ys ↔ List.Forall₂ (fun x y => f x = .ok y) xs ys := by
  induction xs generalizing ys with
  | nil => rw [List.mapM_nil, pure_eq_ok_iff, List.forall₂_nil_left_iff, eq_comm]
  | cons x xs ih =>
    simp only [List.mapM_cons, bind_eq_ok_iff, pure_eq_ok_iff, ih]
    constructor
    · rintro ⟨y, hy, ys, hys, rfl⟩
      exact .cons hy hys
    · intro h
      cases h with
      | cons hy hys => exact ⟨_, hy, _, hys, rfl⟩

/-- Both computations stop with the same error, or both have an answer, and the answers are
related. -/
inductive Alike {γ : Type} (r : α → γ → Prop) : Except ε α → Except ε γ → Prop
  | error (e : ε) : Alike r (.error e) (.error e)
  | ok {a : α} {c : γ} (h : r a c) : Alike r (.ok a) (.ok c)

namespace Alike

variable {α' β' : Type} {r : α → α' → Prop} {s : β → β' → Prop}

lemma refl {r : α → α → Prop} (hr : ∀ a, r a a) (x : Except ε α) : Alike r x x := by
  cases x with
  | error e => exact .error e
  | ok a => exact .ok (hr a)

lemma imp {r' : α → α' → Prop} {x : Except ε α} {x' : Except ε α'} (hx : Alike r x x')
    (h : ∀ a a', r a a' → r' a a') : Alike r' x x' := by
  cases hx with
  | error e => exact .error e
  | ok hr => exact .ok (h _ _ hr)

lemma bind {x : Except ε α} {x' : Except ε α'} {f : α → Except ε β} {f' : α' → Except ε β'}
    (hx : Alike r x x') (hf : ∀ a a', r a a' → Alike s (f a) (f' a')) :
    Alike s (x >>= f) (x' >>= f') := by
  cases hx with
  | error e => exact .error e
  | ok h => exact hf _ _ h

/-- Both begin with the same computation. -/
lemma bind_same {x : Except ε α} {f : α → Except ε β} {f' : α → Except ε β'}
    (hf : ∀ a, Alike s (f a) (f' a)) : Alike s (x >>= f) (x >>= f') := by
  cases x with
  | error e => exact .error e
  | ok a => exact hf a

lemma mapM {f : α → Except ε β} {f' : α' → Except ε β'} {xs : List α} {xs' : List α'}
    (hxs : List.Forall₂ r xs xs') (hf : ∀ a a', r a a' → Alike s (f a) (f' a')) :
    Alike (List.Forall₂ s) (xs.mapM f) (xs'.mapM f') := by
  induction hxs with
  | nil => exact .ok .nil
  | cons h _ ih =>
    rw [List.mapM_cons, List.mapM_cons]
    refine (hf _ _ h).bind fun b b' hb => ?_
    exact ih.bind fun bs bs' hbs => .ok (.cons hb hbs)

end Alike

end PairedTuning
