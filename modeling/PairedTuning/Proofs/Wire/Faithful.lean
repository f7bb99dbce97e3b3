import Mathlib
import PairedTuning.Proofs.Wire.State
import PairedTuning.Proofs.Wire.Exchange
import PairedTuning.Proofs.Wire.Config

/-!
# Faithful formats

A format is faithful if nothing is lost on the way through it: a value that fits is written and read
back, and a document that is read and written again has reached a form that later rounds leave
alone. The second fact follows from the first, because whatever is read from JSON fits.

All values can be written but log settings whose directory is no text.
-/

namespace PairedTuning

open Document

/-- A value that fits is written and read back, and a document that can be read is normalised once
and for all when its value is written. -/
structure Faithful {β : Type} (write : β → Option Document) (read : Document → Option β)
    (Fits : β → Prop) : Prop where
  read_back : ∀ x, Fits x → ∃ d, write x = some d ∧ read d = some x
  settled : ∀ d x, d.IsJson → read d = some x →
    ∃ d' y, write x = some d' ∧ read d' = some y ∧ write y = some d'

namespace Faithful

variable {β : Type} {read : Document → Option β} {Fits : β → Prop}

/-- It is enough that values that fit have documents from which they are read back, and that only
such values are read. -/
lemma of_writes {write : β → Option Document} {encode : β → Document}
    (hwrite : ∀ {x}, Fits x → write x = some (encode x))
    (hback : ∀ {x}, Fits x → read (encode x) = some x) (hyields : Yields read Fits) :
    Faithful write read Fits := by
  constructor
  · intro x hx
    exact ⟨encode x, hwrite hx, hback hx⟩
  · intro d x hd hx
    have hfits := hyields d x hd hx
    exact ⟨encode x, x, hwrite hfits, hback hfits, hwrite hfits⟩

lemma of_yields {encode : β → Document} (hback : ∀ {x}, Fits x → read (encode x) = some x)
    (hyields : Yields read Fits) : Faithful (some ∘ encode) read Fits := by
  apply of_writes
  · intro x _
    rfl
  · exact hback
  · exact hyields

/-- The values of a format without numbers all fit. -/
lemma of_read_back {encode : β → Document} (hback : ∀ x, read (encode x) = some x) :
    Faithful (some ∘ encode) read fun _ => True := by
  apply of_yields
  · intro x _
    exact hback x
  · intro d x _ _
    trivial

end Faithful

/-- All formats are faithful: those of reports and responses, of states, parameters and moments, of
tasks and their perturbations, of optimizers, families, block weights and flips, of configurations
and of log settings. Of all these values only log settings can be without a document, and they are
exactly if they name a directory that is no text. -/
theorem formats_faithful :
    Faithful (some ∘ Report.toDocument) Report.ofDocument? Report.Fits ∧
    Faithful (some ∘ Response.toDocument) Response.ofDocument? Response.Fits ∧
    Faithful (some ∘ TuningState.toDocument) TuningState.ofDocument? TuningState.Fits ∧
    Faithful (some ∘ Parameter.toDocument) Parameter.ofDocument? Parameter.Fits ∧
    Faithful (some ∘ PairMoments.toDocument) PairMoments.ofDocument? PairMoments.Fits ∧
    Faithful (some ∘ Task.toDocument) Task.ofDocument? Task.Fits ∧
    Faithful (some ∘ Pending.toDocument) Pending.ofDocument? Pending.Fits ∧
    Faithful (some ∘ Optimizer.toDocument) Optimizer.ofDocument? Optimizer.Fits ∧
    Faithful (some ∘ Family.toDocument) Family.ofDocument? (fun _ => True) ∧
    Faithful (some ∘ BlockGain.toDocument) BlockGain.ofDocument? (fun _ => True) ∧
    Faithful (some ∘ Flip.toDocument) Flip.ofDocument? (fun _ => True) ∧
    (∀ more, Faithful (some ∘ Config.toDocument) (Config.ofDocument? more) Config.Fits) ∧
    Faithful LogSettings.write? LogSettings.ofDocument? LogSettings.Fits ∧
    ∀ s : LogSettings, s.write? = none ↔ ¬ s.Fits := by
  refine ⟨?_, ?_, ?_, ?_, ?_, ?_, ?_, ?_, ?_, ?_, ?_, ?_, ?_, ?_⟩
  · exact .of_yields Report.ofDocument?_toDocument Report.yields_fits
  · exact .of_yields Response.ofDocument?_toDocument Response.yields_fits
  · exact .of_yields TuningState.ofDocument?_toDocument TuningState.yields_fits
  · exact .of_yields Parameter.ofDocument?_toDocument Parameter.yields_fits
  · exact .of_yields PairMoments.ofDocument?_toDocument PairMoments.yields_fits
  · exact .of_yields Task.ofDocument?_toDocument Task.yields_fits
  · exact .of_yields Pending.ofDocument?_toDocument Pending.yields_fits
  · exact .of_yields Optimizer.ofDocument?_toDocument Optimizer.yields_fits
  · exact .of_read_back Family.ofDocument?_toDocument
  · exact .of_read_back BlockGain.ofDocument?_toDocument
  · exact .of_read_back Flip.ofDocument?_toDocument
  · intro more
    exact .of_yields (Config.ofDocument?_toDocument more) (Config.yields_fits more)
  · exact .of_writes LogSettings.write?_eq_toDocument LogSettings.ofDocument?_toDocument
      LogSettings.yields_fits
  · intro s
    exact LogSettings.write?_eq_none_iff

/-- Settings with the directory of the bytes `2F FF`, which are no text, cannot be written, so no
document gives them back. -/
theorem foreign_directory_unwritten :
    let s := { LogSettings.standard with directory := some ⟨[0x2F, 0xFF]⟩ }
    s.write? = none ∧ ¬ ∃ d, s.write? = some d ∧ LogSettings.ofDocument? d = some s := by
  intro s
  have htext : (DirectoryPath.mk [0x2F, 0xFF]).text? = none := by decide +kernel
  have hwrite : s.write? = none := by
    rw [LogSettings.write?, LogSettings.writeDirectory?, htext]
    rfl
  refine ⟨hwrite, ?_⟩
  rintro ⟨d, hd, -⟩
  cases hwrite.symm.trans hd

-- What carries nothing is gone after the first round, and the order is the one of the format.
example :
    (Task.ofDocument? (obj [("spsa_params", null), ("note", str ""), ("active", bool true)])).map
      Task.toDocument = some (obj [("active", bool true)]) := rfl

end PairedTuning
