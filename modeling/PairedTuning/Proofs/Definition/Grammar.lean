import Mathlib
import PairedTuning.Proofs.Definition.Build
import PairedTuning.Proofs.Scalar.Order

/-!
# The grammar of definitions

Which texts define parameters, said without the reader: what the fields of a line have to be, and
which check a line fails that is not so. The reader accepts exactly the texts of the grammar; of any
other text it reports the first check that the first wrong line fails.

Both directions come from the same two facts about a line. If it is read, its fields give the
parameter, so that no check fails; if it is refused, one check is the first to fail.
-/

namespace PairedTuning

/-- Where a column stands in a line. -/
def Column.position : Column → Nat
  | name => 0
  | start => 1
  | low => 2
  | high => 3
  | cEnd => 4
  | rEnd => 5

namespace ParamLine

/-- The fields of a line, without the blanks around them. -/
def fieldsOf (text : List Char) : List String :=
  (Text.fields ',' text).map fun field => String.ofList (Text.trim field)

/-! ### What a line has to be -/

section

variable (read : String → Option Float) (fields : List String)

/-- The field of a column reads as a number of finite size. -/
def HasNumber (column : Column) (x : Float) : Prop :=
  ∃ text, fields[column.position]? = some text ∧ read text = some x ∧ x.isFinite

/-- The fields hold a name and the numbers of a parameter. -/
structure Holds (p : ParamLine Float) : Prop where
  count : fields.length = 5 ∨ fields.length = 6
  name : fields[Column.name.position]? = some p.name
  start : HasNumber read fields .start p.start
  low : HasNumber read fields .low p.low
  high : HasNumber read fields .high p.high
  cEnd : HasNumber read fields .cEnd p.cEnd
  rEnd : ∀ r, p.rEnd = some r → HasNumber read fields .rEnd r
  absent : p.rEnd = none → fields.length = 5

/-- The fields of line number `line` define a parameter. -/
structure Defines (line : Nat) (p : ParamLine Float) : Prop extends Holds read fields p where
  line : p.line = line
  name_ne : p.name ≠ ""
  low_lt_high : p.low < p.high
  low_le_start : p.low ≤ p.start
  start_le_high : p.start ≤ p.high
  cEnd_pos : 0 < p.cEnd
  rEnd_pos : ∀ r, p.rEnd = some r → 0 < r

end

/-! ### Which check a line fails -/

/-- The checks of a line. -/
inductive Check where
  | fieldCount
  | emptyName
  | duplicateName
  | number (column : Column)
  | bounds
  | startRange
  | sign (column : Column)

namespace Check

/-- The checks of the fields and the name. -/
def ofName : List Check := [fieldCount, emptyName, duplicateName]

/-- The checks that the other fields are numbers. -/
def ofNumbers : List Check :=
  [number .start, number .low, number .high, number .cEnd, number .rEnd]

/-- The checks of the numbers' ranges. -/
def ofRanges : List Check := [bounds, startRange, sign .cEnd, sign .rEnd]

/-- All checks, in the order in which they are made. -/
def all : List Check := ofName ++ (ofNumbers ++ ofRanges)

end Check

section

variable (read : String → Option Float) (line : Nat) (earlier fields : List String)

/-- A check fails for the fields of a line, after parameters of the given names. -/
inductive Fails : Check → DefinitionError Float → Prop
  | fieldCount (hfive : fields.length ≠ 5) (hsix : fields.length ≠ 6) :
    Fails .fieldCount (.fieldCount line fields.length)
  | emptyName (hname : fields[Column.name.position]? = some "") :
    Fails .emptyName (.emptyName line)
  | duplicateName {name : String} (hname : fields[Column.name.position]? = some name)
    (hmem : name ∈ earlier) : Fails .duplicateName (.duplicateName name)
  | number {column : Column} {text : String} (htext : fields[column.position]? = some text)
    (hnone : ∀ x, read text = some x → ¬ x.isFinite) :
    Fails (.number column) (.notANumber line column text)
  | bounds {name : String} {low high : Float}
    (hname : fields[Column.name.position]? = some name) (hlow : HasNumber read fields .low low)
    (hhigh : HasNumber read fields .high high) (h : ¬ low < high) :
    Fails .bounds (.crossedBounds name low high)
  | startRange {name : String} {start low high : Float}
    (hname : fields[Column.name.position]? = some name)
    (hstart : HasNumber read fields .start start) (hlow : HasNumber read fields .low low)
    (hhigh : HasNumber read fields .high high) (h : ¬ (low ≤ start ∧ start ≤ high)) :
    Fails .startRange (.startOutOfBounds name start low high)
  | sign {column : Column} {name : String} {x : Float}
    (hname : fields[Column.name.position]? = some name) (hx : HasNumber read fields column x)
    (h : ¬ 0 < x) : Fails (.sign column) (.nonPositive name column x)

/-- A check does not fail. -/
def Passes (check : Check) : Prop := ∀ e, ¬ Fails read line earlier fields check e

/-- The error of the first check of a list that fails. -/
inductive FirstFault : List Check → DefinitionError Float → Prop
  | here {check : Check} {rest : List Check} {e : DefinitionError Float}
    (h : Fails read line earlier fields check e) : FirstFault (check :: rest) e
  | later {check : Check} {rest : List Check} {e : DefinitionError Float}
    (hpass : Passes read line earlier fields check) (h : FirstFault rest e) :
    FirstFault (check :: rest) e

end

variable {read : String → Option Float} {line : Nat} {earlier fields : List String}

/-! ### Numbers and checks are determined by the fields -/

lemma HasNumber.isFinite {column : Column} {x : Float} (h : HasNumber read fields column x) :
    x.isFinite := by
  obtain ⟨-, -, -, hfinite⟩ := h
  exact hfinite

lemma HasNumber.unique {column : Column} {x y : Float} (hx : HasNumber read fields column x)
    (hy : HasNumber read fields column y) : x = y := by
  obtain ⟨text, htext, hx, -⟩ := hx
  obtain ⟨text', htext', hy, -⟩ := hy
  obtain rfl : text = text' := Option.some_injective _ (htext.symm.trans htext')
  exact Option.some_injective _ (hx.symm.trans hy)

lemma Fails.unique {check : Check} {e e' : DefinitionError Float}
    (h : Fails read line earlier fields check e) (h' : Fails read line earlier fields check e') :
    e = e' := by
  cases h with
  | fieldCount => cases h'; rfl
  | emptyName => cases h'; rfl
  | duplicateName hname =>
    cases h' with
    | duplicateName hname' =>
      cases hname.symm.trans hname'
      rfl
  | number htext =>
    cases h' with
    | number htext' =>
      cases htext.symm.trans htext'
      rfl
  | bounds hname hlow hhigh =>
    cases h' with
    | bounds hname' hlow' hhigh' =>
      cases hname.symm.trans hname'
      rw [hlow.unique hlow', hhigh.unique hhigh']
  | startRange hname hstart hlow hhigh =>
    cases h' with
    | startRange hname' hstart' hlow' hhigh' =>
      cases hname.symm.trans hname'
      rw [hstart.unique hstart', hlow.unique hlow', hhigh.unique hhigh']
  | sign hname hx =>
    cases h' with
    | sign hname' hx' =>
      cases hname.symm.trans hname'
      rw [hx.unique hx']

namespace FirstFault

variable {checks : List Check} {e e' : DefinitionError Float}

lemma unique (h : FirstFault read line earlier fields checks e)
    (h' : FirstFault read line earlier fields checks e') : e = e' := by
  induction h with
  | here h =>
    cases h' with
    | here h' => exact h.unique h'
    | later hpass _ => exact absurd h (hpass _)
  | later hpass _ ih =>
    cases h' with
    | here h' => exact absurd h' (hpass _)
    | later _ h' => exact ih h'

lemma exists_fails (h : FirstFault read line earlier fields checks e) :
    ∃ check ∈ checks, Fails read line earlier fields check e := by
  induction h with
  | here h => exact ⟨_, List.mem_cons_self, h⟩
  | later _ _ ih =>
    obtain ⟨check, hmem, h⟩ := ih
    exact ⟨check, List.mem_cons_of_mem _ hmem, h⟩

lemma append (h : FirstFault read line earlier fields checks e) (more : List Check) :
    FirstFault read line earlier fields (checks ++ more) e := by
  induction h with
  | here h => exact here h
  | later hpass _ ih => exact later hpass ih

lemma after {more : List Check} (hpass : ∀ check ∈ checks, Passes read line earlier fields check)
    (h : FirstFault read line earlier fields more e) :
    FirstFault read line earlier fields (checks ++ more) e := by
  induction checks with
  | nil => exact h
  | cons check checks ih =>
    obtain ⟨hfirst, hrest⟩ := List.forall_mem_cons.mp hpass
    exact later hfirst (ih hrest)

end FirstFault

/-! ### Which checks pass -/

lemma passes_fieldCount (h : fields.length = 5 ∨ fields.length = 6) :
    Passes read line earlier fields .fieldCount := by
  intro e hfail
  cases hfail with
  | fieldCount hfive hsix => exact h.elim hfive hsix

lemma passes_emptyName {name : String} (hname : fields[Column.name.position]? = some name)
    (hne : name ≠ "") : Passes read line earlier fields .emptyName := by
  intro e hfail
  cases hfail with
  | emptyName hempty => exact hne (Option.some_injective _ (hname.symm.trans hempty))

lemma passes_duplicateName {name : String} (hname : fields[Column.name.position]? = some name)
    (hmem : name ∉ earlier) : Passes read line earlier fields .duplicateName := by
  intro e hfail
  cases hfail with
  | duplicateName hname' hmem' =>
    cases hname.symm.trans hname'
    exact hmem hmem'

lemma HasNumber.passes {column : Column} {x : Float} (h : HasNumber read fields column x) :
    Passes read line earlier fields (.number column) := by
  intro e hfail
  obtain ⟨text, htext, hread, hfinite⟩ := h
  cases hfail with
  | number htext' hnone =>
    cases htext.symm.trans htext'
    exact hnone x hread hfinite

lemma HasNumber.passes_sign {column : Column} {x : Float} (h : HasNumber read fields column x)
    (hpos : 0 < x) : Passes read line earlier fields (.sign column) := by
  intro e hfail
  cases hfail with
  | sign _ hx hneg => exact hneg (h.unique hx ▸ hpos)

/-- What is not there fails no check. -/
lemma passes_of_absent {column : Column} (h : fields[column.position]? = none) :
    Passes read line earlier fields (.number column) ∧
      Passes read line earlier fields (.sign column) := by
  constructor
  · intro e hfail
    cases hfail with
    | number htext _ => cases h.symm.trans htext
  · intro e hfail
    cases hfail with
    | sign _ hx _ =>
      obtain ⟨text, htext, -⟩ := hx
      cases h.symm.trans htext

lemma Holds.rEnd_absent {p : ParamLine Float} (h : Holds read fields p) (hnone : p.rEnd = none) :
    fields[Column.rEnd.position]? = none := by
  apply List.getElem?_eq_none
  rw [h.absent hnone]
  exact le_rfl

lemma Holds.passes_numbers {p : ParamLine Float} (h : Holds read fields p) :
    ∀ check ∈ Check.ofNumbers, Passes read line earlier fields check := by
  have hrEnd : Passes read line earlier fields (.number .rEnd) := by
    cases hr : p.rEnd with
    | none => exact (passes_of_absent (h.rEnd_absent hr)).1
    | some r => exact (h.rEnd r hr).passes
  simp only [Check.ofNumbers, List.forall_mem_cons]
  exact ⟨h.start.passes, h.low.passes, h.high.passes, h.cEnd.passes, hrEnd, by simp⟩

lemma Holds.passes_bounds {p : ParamLine Float} (h : Holds read fields p) (hlt : p.low < p.high) :
    Passes read line earlier fields .bounds := by
  intro e hfail
  cases hfail with
  | bounds _ hlow hhigh hnot =>
    rw [hlow.unique h.low, hhigh.unique h.high] at hnot
    exact hnot hlt

lemma Holds.passes_startRange {p : ParamLine Float} (h : Holds read fields p)
    (hrange : p.low ≤ p.start ∧ p.start ≤ p.high) :
    Passes read line earlier fields .startRange := by
  intro e hfail
  cases hfail with
  | startRange _ hstart hlow hhigh hnot =>
    rw [hstart.unique h.start, hlow.unique h.low, hhigh.unique h.high] at hnot
    exact hnot hrange

/-- A line that defines a parameter passes all checks. -/
lemma Defines.passes {p : ParamLine Float} (h : Defines read fields line p)
    (hnew : p.name ∉ earlier) : ∀ check ∈ Check.all, Passes read line earlier fields check := by
  have hrEnd : Passes read line earlier fields (.sign .rEnd) := by
    cases hr : p.rEnd with
    | none => exact (passes_of_absent (h.rEnd_absent hr)).2
    | some r => exact (h.rEnd r hr).passes_sign (h.rEnd_pos r hr)
  have hname : ∀ check ∈ Check.ofName, Passes read line earlier fields check := by
    simp only [Check.ofName, List.forall_mem_cons]
    exact ⟨passes_fieldCount h.count, passes_emptyName h.name h.name_ne,
      passes_duplicateName h.name hnew, by simp⟩
  have hranges : ∀ check ∈ Check.ofRanges, Passes read line earlier fields check := by
    simp only [Check.ofRanges, List.forall_mem_cons]
    exact ⟨h.passes_bounds h.low_lt_high,
      h.passes_startRange ⟨h.low_le_start, h.start_le_high⟩, h.cEnd.passes_sign h.cEnd_pos, hrEnd,
      by simp⟩
  rw [Check.all, List.forall_mem_append, List.forall_mem_append]
  exact ⟨hname, h.passes_numbers, hranges⟩

/-! ### Reading one line -/

lemma columns_eq_ok {name start low high cEnd : String} {rEnd : Option String}
    (h : columns (α := Float) line fields = .ok (name, start, low, high, cEnd, rEnd)) :
    fields = [name, start, low, high, cEnd] ++ rEnd.toList := by
  unfold columns at h
  split at h
  · cases h
    rfl
  · cases h
    rfl
  · cases h

lemma columns_eq_error {e : DefinitionError Float} (h : columns line fields = .error e) :
    Fails read line earlier fields .fieldCount e := by
  unfold columns at h
  split at h
  · cases h
  · cases h
  · rename_i hfive hsix
    cases h
    apply Fails.fieldCount
    · intro hlength
      match fields, hlength with
      | [_, _, _, _, _], _ => exact hfive _ _ _ _ _ rfl
    · intro hlength
      match fields, hlength with
      | [_, _, _, _, _, _], _ => exact hsix _ _ _ _ _ _ rfl

lemma number_eq_ok {column : Column} {text : String} {x : Float}
    (htext : fields[column.position]? = some text)
    (h : number read line column text = .ok x) : HasNumber read fields column x := by
  unfold number at h
  split at h
  · rename_i y hy
    cases h
    obtain ⟨hread, hfinite⟩ := Option.filter_eq_some_iff.mp hy
    exact ⟨text, htext, hread, hfinite⟩
  · cases h

lemma number_eq_error {column : Column} {text : String} {e : DefinitionError Float}
    (htext : fields[column.position]? = some text)
    (h : number read line column text = .error e) :
    Fails read line earlier fields (.number column) e := by
  unfold number at h
  split at h
  · cases h
  · rename_i hnone
    cases h
    refine .number htext fun x hx hfinite => ?_
    rw [hx] at hnone
    simp [Scalar.isFinite, hfinite] at hnone

lemma checkName_eq_ok {name : String} (h : checkName (α := Float) line earlier name = .ok ()) :
    name ≠ "" ∧ name ∉ earlier := by
  unfold checkName at h
  split_ifs at h with hempty hmem
  exact ⟨hempty, hmem⟩

lemma checkName_eq_error {name : String} {e : DefinitionError Float}
    (hcount : fields.length = 5 ∨ fields.length = 6)
    (hname : fields[Column.name.position]? = some name)
    (h : checkName line earlier name = .error e) :
    FirstFault read line earlier fields Check.ofName e := by
  unfold checkName at h
  apply FirstFault.later (passes_fieldCount hcount)
  split_ifs at h with hempty hmem
  · cases h
    subst hempty
    exact .here (.emptyName hname)
  · cases h
    exact .later (passes_emptyName hname hempty) (.here (.duplicateName hname hmem))

section

variable {name start low high cEnd : String} {rEnd : Option String}

/-- The last number is read like the others, if it is there. -/
lemma numbers_eq {α : Type} [Scalar α] {read : String → Option α} :
    numbers read line name start low high cEnd rEnd = (do
      let start ← number read line .start start
      let low ← number read line .low low
      let high ← number read line .high high
      let cEnd ← number read line .cEnd cEnd
      let rEnd ← rEnd.mapM (number read line .rEnd)
      pure { line, name, start, low, high, cEnd, rEnd }) := by
  cases rEnd <;> rfl

lemma numbers_eq_ok {p : ParamLine Float}
    (hfields : fields = [name, start, low, high, cEnd] ++ rEnd.toList)
    (h : numbers read line name start low high cEnd rEnd = .ok p) :
    Holds read fields p ∧ p.line = line ∧ p.name = name := by
  simp only [numbers_eq, bind_eq_ok_iff, pure_eq_ok_iff] at h
  obtain ⟨x, hx, lo, hlo, hi, hhi, c, hc, r, hr, rfl⟩ := h
  subst hfields
  refine ⟨?_, rfl, rfl⟩
  refine
    { count := ?_
      name := rfl
      start := number_eq_ok rfl hx
      low := number_eq_ok rfl hlo
      high := number_eq_ok rfl hhi
      cEnd := number_eq_ok rfl hc
      rEnd := ?_
      absent := ?_ }
  · cases rEnd <;> simp
  · rintro x rfl
    cases rEnd with
    | none => cases hr
    | some text =>
      rw [Option.mapM_some, map_eq_ok_iff] at hr
      obtain ⟨y, hy, heq⟩ := hr
      cases heq
      exact number_eq_ok rfl hy
  · rintro rfl
    cases rEnd with
    | none => rfl
    | some text =>
      rw [Option.mapM_some, map_eq_ok_iff] at hr
      obtain ⟨y, -, heq⟩ := hr
      cases heq

lemma numbers_eq_error {e : DefinitionError Float}
    (hfields : fields = [name, start, low, high, cEnd] ++ rEnd.toList)
    (h : numbers read line name start low high cEnd rEnd = .error e) :
    FirstFault read line earlier fields Check.ofNumbers e := by
  simp only [numbers_eq, bind_eq_error_iff] at h
  subst hfields
  rcases h with h | ⟨x, hx, h⟩
  · exact .here (number_eq_error rfl h)
  apply FirstFault.later (number_eq_ok rfl hx).passes
  rcases h with h | ⟨lo, hlo, h⟩
  · exact .here (number_eq_error rfl h)
  apply FirstFault.later (number_eq_ok rfl hlo).passes
  rcases h with h | ⟨hi, hhi, h⟩
  · exact .here (number_eq_error rfl h)
  apply FirstFault.later (number_eq_ok rfl hhi).passes
  rcases h with h | ⟨c, hc, h⟩
  · exact .here (number_eq_error rfl h)
  apply FirstFault.later (number_eq_ok rfl hc).passes
  rcases h with h | ⟨r, -, h⟩
  · cases rEnd with
    | none => cases h
    | some text =>
      rw [Option.mapM_some, map_eq_error_iff] at h
      exact .here (number_eq_error rfl h)
  · cases h

end

/-- The checks of ranges, in terms of the order of finite floats. -/
lemma checked_eq_error {p : ParamLine Float} (hp : Holds read fields p) {e : DefinitionError Float}
    (h : p.checked = .error e) : FirstFault read line earlier fields Check.ofRanges e := by
  have hbounds : ¬ p.high ≤ p.low ↔ p.low < p.high :=
    Scalar.not_le_iff_lt hp.low.isFinite hp.high.isFinite
  have hpos {x : Float} (hx : x.isFinite) : ¬ x ≤ 0 ↔ 0 < x :=
    Scalar.not_le_iff_lt (by decide) hx
  unfold checked at h
  split_ifs at h with hcrossed hstart hc
  · cases h
    exact .here (.bounds hp.name hp.low hp.high fun hlt => hbounds.mpr hlt hcrossed)
  · cases h
    exact .later (hp.passes_bounds (hbounds.mp hcrossed)) (.later (hp.passes_startRange hstart)
      (.here (.sign hp.name hp.cEnd fun hlt => (hpos hp.cEnd.isFinite).mpr hlt hc)))
  · apply FirstFault.later (hp.passes_bounds (hbounds.mp hcrossed))
    apply FirstFault.later (hp.passes_startRange hstart)
    apply FirstFault.later (hp.cEnd.passes_sign ((hpos hp.cEnd.isFinite).mp hc))
    split at h
    · rename_i r hr
      split_ifs at h with hneg
      cases h
      have hrEnd := hp.rEnd r hr
      exact .here (.sign hp.name hrEnd fun hlt => (hpos hrEnd.isFinite).mpr hlt hneg)
    · cases h
  · cases h
    exact .later (hp.passes_bounds (hbounds.mp hcrossed))
      (.here (.startRange hp.name hp.start hp.low hp.high hstart))

/-- The checks of ranges pass if the values make sense. -/
lemma Holds.defines {p : ParamLine Float} (hp : Holds read fields p) (hline : p.line = line)
    (hname : p.name ≠ "") (hvalid : p.Valid) : Defines read fields line p where
  toHolds := hp
  line := hline
  name_ne := hname
  low_lt_high := (Scalar.not_le_iff_lt hp.low.isFinite hp.high.isFinite).mp hvalid.bounds
  low_le_start := hvalid.low_le
  start_le_high := hvalid.le_high
  cEnd_pos := (Scalar.not_le_iff_lt (by decide) hp.cEnd.isFinite).mp hvalid.cEnd
  rEnd_pos r hr := (Scalar.not_le_iff_lt (by decide) (hp.rEnd r hr).isFinite).mp (hvalid.rEnd r hr)

lemma defines_of_ofFields {p : ParamLine Float} (h : ofFields read line earlier fields = .ok p) :
    Defines read fields line p ∧ p.name ∉ earlier := by
  simp only [ofFields, bind_eq_ok_iff] at h
  obtain ⟨⟨name, start, low, high, cEnd, rEnd⟩, hcolumns, _, hname, q, hnumbers, hchecked⟩ := h
  obtain ⟨rfl, hvalid⟩ := checked_eq_ok_iff.mp hchecked
  obtain ⟨hholds, hline, rfl⟩ := numbers_eq_ok (columns_eq_ok hcolumns) hnumbers
  obtain ⟨hne, hnew⟩ := checkName_eq_ok hname
  exact ⟨hholds.defines hline hne hvalid, hnew⟩

lemma firstFault_of_ofFields {e : DefinitionError Float}
    (h : ofFields read line earlier fields = .error e) :
    FirstFault read line earlier fields Check.all e := by
  simp only [ofFields, bind_eq_error_iff] at h
  rcases h with h | ⟨⟨name, start, low, high, cEnd, rEnd⟩, hcolumns, h⟩
  · exact .here (columns_eq_error h)
  have hfields := columns_eq_ok hcolumns
  have hcount : fields.length = 5 ∨ fields.length = 6 := by
    cases rEnd <;> simp [hfields]
  have hfirst : fields[Column.name.position]? = some name := by
    rw [hfields]
    rfl
  rcases h with h | ⟨_, hname, h⟩
  · exact (checkName_eq_error hcount hfirst h).append _
  obtain ⟨hne, hnew⟩ := checkName_eq_ok hname
  have hpass : ∀ check ∈ Check.ofName, Passes read line earlier fields check := by
    simp only [Check.ofName, List.forall_mem_cons]
    exact ⟨passes_fieldCount hcount, passes_emptyName hfirst hne,
      passes_duplicateName hfirst hnew, by simp⟩
  apply FirstFault.after hpass
  rcases h with h | ⟨q, hnumbers, h⟩
  · exact (numbers_eq_error hfields h).append _
  obtain ⟨hholds, -, -⟩ := numbers_eq_ok hfields hnumbers
  exact .after hholds.passes_numbers (checked_eq_error hholds h)

lemma Holds.not_rEnd {p : ParamLine Float} (hp : Holds read fields p) (hnone : p.rEnd = none)
    {r : Float} (h : HasNumber read fields .rEnd r) : False := by
  obtain ⟨text, htext, -⟩ := h
  cases (hp.rEnd_absent hnone).symm.trans htext

lemma Holds.rEnd_unique {p q : ParamLine Float} (hp : Holds read fields p)
    (hq : Holds read fields q) : p.rEnd = q.rEnd := by
  cases hr : p.rEnd with
  | none =>
    cases hr' : q.rEnd with
    | none => rfl
    | some r' => exact (hp.not_rEnd hr (hq.rEnd r' hr')).elim
  | some r =>
    cases hr' : q.rEnd with
    | none => exact (hq.not_rEnd hr' (hp.rEnd r hr)).elim
    | some r' => rw [(hp.rEnd r hr).unique (hq.rEnd r' hr')]

lemma Defines.unique {p q : ParamLine Float} (hp : Defines read fields line p)
    (hq : Defines read fields line q) : p = q := by
  have hline : p.line = q.line := hp.line.trans hq.line.symm
  have hname : p.name = q.name := Option.some_injective _ (hp.name.symm.trans hq.name)
  have hrEnd := hp.rEnd_unique hq.toHolds
  have hstart := hp.start.unique hq.start
  have hlow := hp.low.unique hq.low
  have hhigh := hp.high.unique hq.high
  have hcEnd := hp.cEnd.unique hq.cEnd
  cases p
  cases q
  rw [mk.injEq]
  exact ⟨hline, hname, hstart, hlow, hhigh, hcEnd, hrEnd⟩

/-- A line is read as the one parameter that its fields define, if the name is new. -/
lemma ofFields_eq_ok_iff {p : ParamLine Float} :
    ofFields read line earlier fields = .ok p ↔ Defines read fields line p ∧ p.name ∉ earlier := by
  constructor
  · exact defines_of_ofFields
  · rintro ⟨hdefines, hnew⟩
    cases h : ofFields read line earlier fields with
    | error e =>
      obtain ⟨check, hmem, hfails⟩ := (firstFault_of_ofFields h).exists_fails
      exact absurd hfails (hdefines.passes hnew check hmem e)
    | ok q =>
      rw [hdefines.unique (defines_of_ofFields h).1]

/-- A line is refused with the error of the first check that it fails. -/
lemma ofFields_eq_error_iff {e : DefinitionError Float} :
    ofFields read line earlier fields = .error e ↔
      FirstFault read line earlier fields Check.all e := by
  constructor
  · exact firstFault_of_ofFields
  · intro hfault
    cases h : ofFields read line earlier fields with
    | error e' => rw [hfault.unique (firstFault_of_ofFields h)]
    | ok p =>
      obtain ⟨hdefines, hnew⟩ := defines_of_ofFields h
      obtain ⟨check, hmem, hfails⟩ := hfault.exists_fails
      exact absurd hfails (hdefines.passes hnew check hmem e)

end ParamLine

end PairedTuning
