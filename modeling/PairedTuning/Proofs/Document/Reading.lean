import Mathlib
import PairedTuning.Document.Record
import PairedTuning.Proofs.Scalar.Whole

/-!
# Reading what was written

Every reader of a document has two laws. What was written is read back, as long as its numbers fit:
a whole number into its bits, a float into the finite ones. And what is read from a document of JSON
fits in this sense, because JSON has no other numbers. Both are stated here for the readers that
others are made of; `Yields` is the second one.
-/

namespace PairedTuning

namespace Document

variable {β : Type}

/-! ### Documents of JSON -/

/-- All numbers of a document are numbers of JSON: the whole ones have 64 bits, the others are of
finite size. -/
inductive IsJson : Document → Prop
  | null : IsJson null
  | bool (b : Bool) : IsJson (bool b)
  | int {i : Int} (hleast : -2 ^ 63 ≤ i) (hgreatest : i < 2 ^ 64) : IsJson (int i)
  | float {x : Float} (hx : x.isFinite) : IsJson (float x)
  | str (s : String) : IsJson (str s)
  | arr {items : List Document} (hitems : ∀ d ∈ items, IsJson d) : IsJson (arr items)
  | obj {fields : List (String × Document)} (hfields : ∀ f ∈ fields, IsJson f.2) :
    IsJson (obj fields)

/-- Whatever is read from a document of JSON has a property. -/
def Yields (decode : Document → Option β) (P : β → Prop) : Prop :=
  ∀ d x, d.IsJson → decode d = some x → P x

/-! ### Look-up -/

@[simp] lemma lookup_nil (key : String) : lookup key [] = none := rfl

@[simp] lemma lookup_cons_self (key : String) (d : Document) (fields : Fields) :
    lookup key ((key, d) :: fields) = some d := by
  simp [lookup]

@[simp] lemma lookup_cons_ne {key k : String} (h : k ≠ key) (d : Document) (fields : Fields) :
    lookup key ((k, d) :: fields) = lookup key fields := by
  simp [lookup, h]

lemma mem_of_lookup {key : String} {d : Document} {fields : Fields}
    (h : lookup key fields = some d) : (key, d) ∈ fields := by
  induction fields with
  | nil => cases h
  | cons f fields ih =>
    obtain ⟨k, d'⟩ := f
    by_cases hk : k = key
    · subst hk
      rw [lookup_cons_self] at h
      cases h
      exact List.mem_cons_self
    · rw [lookup_cons_ne hk] at h
      exact List.mem_cons_of_mem _ (ih h)

/-! ### Numbers -/

lemma toNat?_ofNat {n bits : Nat} (h : n < 2 ^ bits) : (ofNat n).toNat? bits = some n := by
  simp [ofNat, toNat?, Nat.shiftLeft_eq, h]

lemma yields_toNat? (bits : Nat) : Yields (toNat? bits) (· < 2 ^ bits) := by
  intro d n _ h
  cases d with
  | int i =>
    simp only [toNat?, Nat.shiftLeft_eq, one_mul] at h
    split_ifs at h with hfits
    cases h
    exact hfits.2
  | _ => cases h

lemma toFloat?_ofFloat {x : Float} (h : x.isFinite) : (ofFloat x).toFloat? = some x := by
  simp [ofFloat, toFloat?, h]

lemma ofFloat_ne_null {x : Float} (h : x.isFinite) : ofFloat x ≠ null := by
  rw [ofFloat, if_pos h]
  exact nofun

lemma yields_toFloat? : Yields toFloat? (·.isFinite) := by
  intro d x hd h
  cases hd with
  | int hleast hgreatest =>
    cases h
    exact WholeFloat.isFinite_ofInt hleast hgreatest
  | float hx =>
    cases h
    exact hx
  | _ => cases h

/-! ### Lists and options -/

lemma toList?_ofList {encode : β → Document} {decode : Document → Option β} {xs : List β}
    (h : ∀ x ∈ xs, decode (encode x) = some x) :
    (ofList encode xs).toList? decode = some xs := by
  simp only [ofList, toList?]
  induction xs with
  | nil => rfl
  | cons x xs ih =>
    rw [List.map_cons, List.mapM_cons, h x List.mem_cons_self,
      ih fun y hy => h y (List.mem_cons_of_mem x hy)]
    rfl

lemma Yields.toList? {decode : Document → Option β} {P : β → Prop} (h : Yields decode P) :
    Yields (toList? decode) fun xs => ∀ x ∈ xs, P x := by
  intro d xs hd hxs
  cases hd with
  | arr hitems =>
    rename_i items
    simp only [Document.toList?] at hxs
    induction items generalizing xs with
    | nil =>
      cases hxs
      simp
    | cons d items ih =>
      simp only [List.mapM_cons, Option.bind_eq_bind, Option.bind_eq_some_iff, Option.pure_def,
        Option.some.injEq] at hxs
      obtain ⟨x, hx, rest, hrest, rfl⟩ := hxs
      have hfirst := h d x (hitems d List.mem_cons_self) hx
      have hothers := ih rest (fun d' hd' => hitems d' (List.mem_cons_of_mem d hd')) hrest
      exact List.forall_mem_cons.mpr ⟨hfirst, hothers⟩
  | _ => cases hxs

lemma str_ne_null (s : String) : str s ≠ null := nofun

lemma toOption?_of_ne_null {decode : Document → Option β} {d : Document} (h : d ≠ null) :
    toOption? decode d = (decode d).map some := by
  cases d with
  | null => exact absurd rfl h
  | _ => rfl

lemma toOption?_ofOption {encode : β → Document} {decode : Document → Option β} {x? : Option β}
    (hnull : ∀ x, encode x ≠ null) (h : ∀ x ∈ x?, decode (encode x) = some x) :
    toOption? decode (ofOption encode x?) = some x? := by
  cases x? with
  | none => rfl
  | some x => rw [ofOption, toOption?_of_ne_null (hnull x), h x rfl, Option.map_some]

lemma Yields.toOption? {decode : Document → Option β} {P : β → Prop} (h : Yields decode P) :
    Yields (toOption? decode) fun x? => ∀ x ∈ x?, P x := by
  intro d x? hd hx? x hx
  cases d with
  | null =>
    cases hx?
    cases hx
  | _ =>
    obtain ⟨y, hy, rfl⟩ := Option.map_eq_some_iff.mp hx?
    cases hx
    exact h _ x hd hy

end Document

/-! ### Fields -/

namespace Fields

open Document

variable {β : Type} {fields : Fields} {key : String} {decode : Document → Option β} {P : β → Prop}

/-- The fields of a record that is given in JSON. -/
def IsJson (fields : Fields) : Prop := ∀ f ∈ fields, f.2.IsJson

lemma IsJson.lookup (h : fields.IsJson) {d : Document}
    (hd : Document.lookup key fields = some d) : d.IsJson :=
  h (key, d) (mem_of_lookup hd)

/-- Also the items of an array are the fields of a record, in their order. -/
lemma isJson_of_record? {d : Document} {names : List String} {more : Bool} (hd : d.IsJson)
    (h : d.record? names more = some fields) : fields.IsJson := by
  cases hd with
  | arr hitems =>
    simp only [record?] at h
    split_ifs at h
    cases h
    intro f hf
    exact hitems f.2 (List.of_mem_zip hf).2
  | obj hfields =>
    cases h
    exact hfields
  | _ => cases h

lemma IsJson.required (hfields : fields.IsJson) (h : Yields decode P) {x : β}
    (hx : fields.required key decode = some x) : P x := by
  obtain ⟨d, hd, hx⟩ := Option.bind_eq_some_iff.mp hx
  exact h d x (hfields.lookup hd) hx

lemma IsJson.defaulted (hfields : fields.IsJson) (h : Yields decode P) {default x : β}
    (hdefault : P default) (hx : fields.defaulted key default decode = some x) : P x := by
  rw [Fields.defaulted] at hx
  split at hx
  · cases hx
    exact hdefault
  · rename_i d hd
    exact h d x (hfields.lookup hd) hx

lemma IsJson.optional (hfields : fields.IsJson) (h : Yields decode P) {x? : Option β}
    (hx : fields.optional key decode = some x?) : ∀ x ∈ x?, P x :=
  hfields.defaulted h.toOption? (by simp) hx

/-! #### Optional fields that are written -/

@[simp] lemma optional_cons_self (key : String) (d : Document) (fields : Fields)
    (decode : Document → Option β) :
    Fields.optional ((key, d) :: fields) key decode = toOption? decode d := by
  simp [Fields.optional, Fields.defaulted]

@[simp] lemma optional_cons_ne {k : String} (h : k ≠ key) (d : Document) (fields : Fields)
    (decode : Document → Option β) :
    Fields.optional ((k, d) :: fields) key decode = fields.optional key decode := by
  simp [Fields.optional, Fields.defaulted, h]

variable {encode : β → Document}

@[simp] lemma lookup_present_append {k : String} (h : k ≠ key) (encode : β → Document)
    (x? : Option β) (rest : Fields) :
    Document.lookup key (present k encode x? ++ rest) = Document.lookup key rest := by
  cases x? with
  | none => rfl
  | some x => exact lookup_cons_ne h (encode x) rest

@[simp] lemma lookup_present {k : String} (h : k ≠ key) (encode : β → Document) (x? : Option β) :
    Document.lookup key (present k encode x?) = none := by
  cases x? with
  | none => rfl
  | some x => exact lookup_cons_ne h (encode x) []

@[simp] lemma optional_present_append_ne {k : String} (h : k ≠ key) {γ : Type}
    (encode : γ → Document) (x? : Option γ) (rest : Fields) (decode : Document → Option β) :
    Fields.optional (present k encode x? ++ rest) key decode = Fields.optional rest key decode := by
  simp [Fields.optional, Fields.defaulted, h]

/-- A field that is left out when there is no value comes back as it was. -/
lemma optional_present_append {x? : Option β} (hnull : ∀ x ∈ x?, encode x ≠ null)
    (hread : ∀ x ∈ x?, decode (encode x) = some x) {rest : Fields}
    (hrest : Document.lookup key rest = none) :
    Fields.optional (present key encode x? ++ rest) key decode = some x? := by
  cases x? with
  | none => simp [present, Fields.optional, Fields.defaulted, hrest]
  | some x => simp [present, toOption?_of_ne_null (hnull x rfl), hread x rfl]

lemma optional_present {x? : Option β} (hnull : ∀ x ∈ x?, encode x ≠ null)
    (hread : ∀ x ∈ x?, decode (encode x) = some x) :
    Fields.optional (present key encode x?) key decode = some x? := by
  have happend : Fields.optional (present key encode x? ++ []) key decode = some x? :=
    optional_present_append hnull hread rfl
  rwa [List.append_nil] at happend

end Fields

end PairedTuning
