import Mathlib
import PairedTuning.Proofs.Definition.Grammar

/-!
# Texts that define parameters

A text is read line by line, with the names of the lines before. What is known about one line
carries over by induction on the lines: all of them are read exactly if every line that is not blank
defines a parameter with a name of its own, and otherwise the error is that of the first line that
does not.
-/

namespace PairedTuning.ParamLine

/-- The lines that are not blank, each with its number, if the first line of all has number
`first`. -/
def numbered (first : Nat) (texts : List (List Char)) : List (List Char × Nat) :=
  (texts.zipIdx first).filter fun (text, _) => Text.trim text ≠ []

/-- The lines list the parameters: one for every line that is not blank, in the order of the lines
and under their numbers, and no name comes twice. -/
structure Lists (read : String → Option Float) (texts : List (List Char))
    (params : List (ParamLine Float)) : Prop where
  lines : List.Forall₂ (fun (text, line) p => Defines read (fieldsOf text) line p)
    (numbered 1 texts) params
  names : (params.map (·.name)).Nodup

variable {read : String → Option Float} {first : Nat} {earlier : List String}
  {text : List Char} {texts : List (List Char)} {params : List (ParamLine Float)}

/-! ### Lines with their numbers -/

lemma numbered_cons_of_blank (h : Text.trim text = []) :
    numbered first (text :: texts) = numbered (first + 1) texts := by
  simp [numbered, List.zipIdx_cons, h]

lemma numbered_cons (h : Text.trim text ≠ []) :
    numbered first (text :: texts) = (text, first) :: numbered (first + 1) texts := by
  simp [numbered, List.zipIdx_cons, h]

lemma numbered_eq_nil_iff : numbered first texts = [] ↔ ∀ text ∈ texts, Text.trim text = [] := by
  induction texts generalizing first with
  | nil => simp [numbered]
  | cons text texts ih =>
    rw [List.forall_mem_cons]
    by_cases h : Text.trim text = []
    · rw [numbered_cons_of_blank h, ih]
      simp [h]
    · rw [numbered_cons h]
      simp [h]

/-! ### Reading the lines one after the other -/

section

variable {α : Type} [Scalar α] {read : String → Option α}

lemma ofLines_cons_of_blank (h : Text.trim text = []) :
    ofLines read first earlier (text :: texts) = ofLines read (first + 1) earlier texts := by
  rw [ofLines, if_pos h]

lemma ofLines_cons (h : Text.trim text ≠ []) :
    ofLines read first earlier (text :: texts) = (do
      let p ← ofFields read first earlier (fieldsOf text)
      let more ← ofLines read (first + 1) (p.name :: earlier) texts
      pure (p :: more)) := by
  rw [ofLines, if_neg h]
  rfl

end

/-- Only which names came earlier matters, not their order. -/
lemma ofFields_congr {line : Nat} {earlier' fields : List String}
    (h : ∀ name, name ∈ earlier ↔ name ∈ earlier') :
    ofFields read line earlier fields = ofFields read line earlier' fields := by
  simp [ofFields, checkName, h]

/-- The lines are read exactly if each of them defines a parameter, with a new name. -/
lemma ofLines_eq_ok_iff :
    ofLines read first earlier texts = .ok params ↔
      List.Forall₂ (fun (text, line) p => Defines read (fieldsOf text) line p)
        (numbered first texts) params ∧
      (params.map (·.name)).Nodup ∧ ∀ p ∈ params, p.name ∉ earlier := by
  induction texts generalizing first earlier params with
  | nil =>
    rw [ofLines, pure_eq_ok_iff]
    constructor
    · rintro rfl
      simp [numbered]
    · rintro ⟨h, -⟩
      exact (List.forall₂_nil_left_iff.mp h).symm
  | cons text texts ih =>
    by_cases hblank : Text.trim text = []
    · rw [ofLines_cons_of_blank hblank, numbered_cons_of_blank hblank, ih]
    simp only [ofLines_cons hblank, numbered_cons hblank, bind_eq_ok_iff, pure_eq_ok_iff,
      ofFields_eq_ok_iff, ih]
    constructor
    · rintro ⟨p, ⟨hdefines, hnew⟩, more, ⟨hmore, hnames, hothers⟩, rfl⟩
      refine ⟨.cons hdefines hmore, ?_, ?_⟩
      · rw [List.map_cons, List.nodup_cons]
        refine ⟨?_, hnames⟩
        intro hmem
        obtain ⟨q, hq, hname⟩ := List.mem_map.mp hmem
        exact hothers q hq (hname ▸ List.mem_cons_self)
      · rw [List.forall_mem_cons]
        exact ⟨hnew, fun q hq hmem => hothers q hq (List.mem_cons_of_mem _ hmem)⟩
    · rintro ⟨h, hnames, hnew⟩
      cases h with
      | @cons _ p _ more hdefines hmore =>
        rw [List.map_cons, List.nodup_cons] at hnames
        rw [List.forall_mem_cons] at hnew
        refine ⟨p, ⟨hdefines, hnew.1⟩, more, ⟨hmore, hnames.2, ?_⟩, rfl⟩
        intro q hq hmem
        rcases List.mem_cons.mp hmem with hname | hmem
        · exact hnames.1 (hname ▸ List.mem_map_of_mem hq)
        · exact hnew.2 q hq hmem

/-- Reading goes on behind some lines with their number and the names found in them. -/
lemma ofLines_append (before rest : List (List Char)) :
    ofLines read first earlier (before ++ rest) = (do
      let params ← ofLines read first earlier before
      let more ← ofLines read (first + before.length)
        ((params.map (·.name)).reverse ++ earlier) rest
      pure (params ++ more)) := by
  induction before generalizing first earlier with
  | nil =>
    show _ = ofLines read first earlier rest >>= pure
    rw [bind_pure]
    rfl
  | cons text before ih =>
    have hnumber : first + (text :: before).length = first + 1 + before.length := by
      rw [List.length_cons]
      omega
    by_cases hblank : Text.trim text = []
    · rw [List.cons_append, ofLines_cons_of_blank hblank, ofLines_cons_of_blank hblank, ih, hnumber]
    · rw [List.cons_append, ofLines_cons hblank, ofLines_cons hblank, hnumber]
      simp [ih]

/-- If the lines are refused, then with the error of one of them, and those before it are read. -/
lemma exists_of_ofLines_eq_error {e : DefinitionError Float}
    (h : ofLines read first earlier texts = .error e) :
    ∃ before text after params, texts = before ++ text :: after ∧
      ofLines read first earlier before = .ok params ∧ Text.trim text ≠ [] ∧
      ofFields read (first + before.length) ((params.map (·.name)).reverse ++ earlier)
        (fieldsOf text) = .error e := by
  induction texts generalizing first earlier with
  | nil => cases h
  | cons text texts ih =>
    have hnumber (before : List (List Char)) :
        first + (text :: before).length = first + 1 + before.length := by
      rw [List.length_cons]
      omega
    by_cases hblank : Text.trim text = []
    · rw [ofLines_cons_of_blank hblank] at h
      obtain ⟨before, wrong, after, params, rfl, hbefore, hwrong, h⟩ := ih h
      refine ⟨text :: before, wrong, after, params, rfl, ?_, hwrong, ?_⟩
      · rw [ofLines_cons_of_blank hblank, hbefore]
      · rwa [hnumber]
    · rw [ofLines_cons hblank, bind_eq_error_iff] at h
      rcases h with h | ⟨p, hp, h⟩
      · exact ⟨[], text, texts, [], rfl, rfl, hblank, h⟩
      · rcases bind_eq_error_iff.mp h with h | ⟨more, -, h⟩
        · obtain ⟨before, wrong, after, params, rfl, hbefore, hwrong, h⟩ := ih h
          refine ⟨text :: before, wrong, after, p :: params, rfl, ?_, hwrong, ?_⟩
          · rw [ofLines_cons hblank, hp]
            simp only [bind, Except.bind, hbefore, pure, Except.pure]
          · rw [hnumber]
            simpa using h
        · cases h

lemma ofLines_eq_error_iff {e : DefinitionError Float} :
    ofLines read first earlier texts = .error e ↔
      ∃ before text after params, texts = before ++ text :: after ∧
        ofLines read first earlier before = .ok params ∧ Text.trim text ≠ [] ∧
        ofFields read (first + before.length) ((params.map (·.name)).reverse ++ earlier)
          (fieldsOf text) = .error e := by
  constructor
  · exact exists_of_ofLines_eq_error
  · rintro ⟨before, text, after, params, rfl, hbefore, htext, h⟩
    have hrest : ofLines read (first + before.length) ((params.map (·.name)).reverse ++ earlier)
        (text :: after) = .error e := by
      rw [ofLines_cons htext, h]
      rfl
    rw [ofLines_append, hbefore]
    exact bind_eq_error_iff.mpr (.inr ⟨params, rfl, bind_eq_error_iff.mpr (.inl hrest)⟩)

/-! ### Texts -/

lemma ofText_eq_ok_iff {text : String} :
    ofText read text = .ok params ↔
      params ≠ [] ∧ ofLines read 1 [] (Text.lines text.toList) = .ok params := by
  rw [ofText, bind_eq_ok_iff]
  constructor
  · rintro ⟨lines, hlines, h⟩
    cases lines with
    | nil => cases h
    | cons p rest =>
      cases h
      exact ⟨by simp, hlines⟩
  · rintro ⟨hne, hlines⟩
    cases params with
    | nil => exact absurd rfl hne
    | cons p rest => exact ⟨p :: rest, hlines, rfl⟩

lemma ofText_eq_error_iff {text : String} {e : DefinitionError Float} :
    ofText read text = .error e ↔
      ofLines read 1 [] (Text.lines text.toList) = .ok [] ∧ e = .noParameters ∨
        ofLines read 1 [] (Text.lines text.toList) = .error e := by
  rw [ofText, bind_eq_error_iff]
  constructor
  · rintro (h | ⟨lines, hlines, h⟩)
    · exact .inr h
    · cases lines with
      | nil =>
        cases h
        exact .inl ⟨hlines, rfl⟩
      | cons p rest => cases h
  · rintro (⟨hlines, rfl⟩ | h)
    · exact .inr ⟨[], hlines, rfl⟩
    · exact .inl h

lemma ofLines_one_eq_ok_iff : ofLines read 1 [] texts = .ok params ↔ Lists read texts params := by
  rw [ofLines_eq_ok_iff]
  constructor
  · rintro ⟨hlines, hnames, -⟩
    exact ⟨hlines, hnames⟩
  · rintro ⟨hlines, hnames⟩
    exact ⟨hlines, hnames, by simp⟩

/-- Nothing is listed exactly if all lines are blank. -/
lemma lists_nil_iff : Lists read texts [] ↔ ∀ text ∈ texts, Text.trim text = [] := by
  rw [← @numbered_eq_nil_iff 1]
  constructor
  · rintro ⟨hlines, -⟩
    exact List.forall₂_nil_right_iff.mp hlines
  · intro h
    exact ⟨by rw [h]; exact .nil, by simp⟩

lemma Lists.ne_nil_iff (h : Lists read texts params) :
    params ≠ [] ↔ ∃ text ∈ texts, Text.trim text ≠ [] := by
  constructor
  · intro hne
    by_contra hblank
    push Not at hblank
    have hnone := h.lines
    rw [numbered_eq_nil_iff.mpr hblank] at hnone
    exact hne (List.forall₂_nil_left_iff.mp hnone)
  · rintro ⟨text, htext, hne⟩ rfl
    exact hne (lists_nil_iff.mp h text htext)

/-- A text is read exactly if one of its lines is not blank and the lines list parameters. Otherwise
the error is the one of the first line that defines no parameter with a new name, and there the one
of the first check that fails; or all lines are blank. -/
theorem ofText_follows_grammar (read : String → Option Float) (text : String) :
    (∀ params, ofText read text = .ok params ↔
      (∃ line ∈ Text.lines text.toList, Text.trim line ≠ []) ∧
        Lists read (Text.lines text.toList) params) ∧
    (∀ e, ofText read text = .error e ↔
      (∀ line ∈ Text.lines text.toList, Text.trim line = []) ∧ e = .noParameters ∨
      ∃ before line after params, Text.lines text.toList = before ++ line :: after ∧
        Lists read before params ∧ Text.trim line ≠ [] ∧
        FirstFault read (before.length + 1) (params.map (·.name)) (fieldsOf line) Check.all e) := by
  constructor
  · intro params
    rw [ofText_eq_ok_iff, ofLines_one_eq_ok_iff]
    exact and_congr_left fun h => h.ne_nil_iff
  · intro e
    rw [ofText_eq_error_iff, ofLines_one_eq_ok_iff, lists_nil_iff, ofLines_eq_error_iff]
    -- The reader collects the names in reverse.
    have hnames (params : List (ParamLine Float)) (line : Nat) (fields : List String) :
        ofFields read line ((params.map (·.name)).reverse ++ []) fields = .error e ↔
          FirstFault read line (params.map (·.name)) fields Check.all e := by
      have hsame (name : String) :
          name ∈ (params.map (·.name)).reverse ++ [] ↔ name ∈ params.map (·.name) := by
        simp
      rw [ofFields_congr hsame, ofFields_eq_error_iff]
    simp only [ofLines_one_eq_ok_iff, hnames, Nat.add_comm 1]

end PairedTuning.ParamLine
