import Mathlib
import PairedTuning.Config.Validation
import PairedTuning.Lock.Table
import PairedTuning.Proofs.Definition.Lines

/-!
# Checked configurations

A configuration is checked as a whole before anything is made from it. Its hyper-parameters are then
in the ranges that the families ask for, each family for itself, so that no run is refused for one
of them; the words of its log section name what they are looked up for; and its number of shards is
taken as it is.

The check and those who use the configuration have tables of their own. The ranges of `InRange` and
the names of the choices are what both sides are compared with.
-/

namespace PairedTuning

/-! ### Hyper-parameters -/

/-- All hyper-parameters are in their ranges. -/
structure HyperDefaults.InRange (d : HyperDefaults Float) : Prop where
  lr : 0 < d.lr
  beta : 0 ≤ d.beta ∧ d.beta < 1
  beta2 : 0 < d.beta2 ∧ d.beta2 ≤ 1
  eps : 0 ≤ d.eps
  initialMoment : 1e-12 ≤ d.initialMoment ∧ d.initialMoment ≤ 4
  offsetFraction : 0 ≤ d.offsetFraction
  alpha : 0 ≤ d.alpha
  gamma : 0 ≤ d.gamma

namespace HyperDefaults

variable {d : HyperDefaults Float}

end HyperDefaults

/-- The table of the configuration's check comes to the same ranges. -/
lemma Config.checkHyper_eq_ok_iff {d : HyperDefaults Float} :
    checkHyper d = .ok () ↔ d.InRange := by
  have hrules : checkHyper d = .ok () ↔ ∀ entry ∈ hyperRules, entry.2.admits (d.get entry.1) := by
    rw [checkHyper, forM_eq_ok_iff]
    apply forall₂_congr
    rintro ⟨p, rule⟩ -
    by_cases h : rule.admits (d.get p) <;> simp [h]
  rw [hrules]
  simp only [hyperRules, List.forall_mem_cons, List.not_mem_nil, false_imp_iff, implies_true,
    and_true, Requirement.admits, HyperDefaults.get, decide_eq_true_eq]
  constructor
  · rintro ⟨hlr, hbeta, hbeta2, heps, hmoment, hoffset, halpha, hgamma⟩
    exact ⟨hlr, hbeta, hbeta2, heps, hmoment, hoffset, halpha, hgamma⟩
  · intro h
    exact ⟨h.lr, h.beta, h.beta2, h.eps, h.initialMoment, h.offsetFraction, h.alpha, h.gamma⟩

/-! ### Words of the log section -/

namespace Definition

variable {read : String → Option Float} {setting : Setting} {x : Float}

end Definition

/-! ### Configurations -/

namespace Config

/-- What is known about a configuration that passed its check. -/
structure Checked (c : Config) : Prop where
  level : c.logging.level ∈ levelWords
  format : c.logging.format ∈ formatWords
  rotation : c.logging.rotation ∈ rotationWords
  logDir : c.logging.logDir ≠ some ""
  shards : isPowerOfTwo c.locks.shards
  ttlSecs : c.cache.ttlSecs ≠ 0
  maxCapacity : c.cache.maxCapacity ≠ 0
  hyper : c.hyper.InRange

lemma checkLogging_eq_ok_iff {c : LoggingConfig} :
    checkLogging c = .ok () ↔ c.level ∈ levelWords ∧ c.format ∈ formatWords ∧
      c.rotation ∈ rotationWords ∧ c.logDir ≠ some "" := by
  simp only [checkLogging, refuse_bind_eq_ok_iff, refuse_eq_ok_iff, pure_eq_ok_iff, and_true,
    Bool.not_eq_true', Bool.not_eq_false, List.contains_iff_mem, ne_eq]

lemma check_eq_ok_iff {c : Config} : c.check = .ok () ↔ c.Checked := by
  simp only [check, bind_eq_ok_iff, refuse_bind_eq_ok_iff, checkHyper_eq_ok_iff]
  constructor
  · rintro ⟨_, hlogging, hshards, httl, hcapacity, hhyper⟩
    obtain ⟨hlevel, hformat, hrotation, hdir⟩ := checkLogging_eq_ok_iff.mp hlogging
    exact
      { level := hlevel
        format := hformat
        rotation := hrotation
        logDir := hdir
        shards := by simpa using hshards
        ttlSecs := httl
        maxCapacity := hcapacity
        hyper := hhyper }
  · intro h
    have hlogging := checkLogging_eq_ok_iff.mpr ⟨h.level, h.format, h.rotation, h.logDir⟩
    exact ⟨(), hlogging, by simpa using h.shards, h.ttlSecs, h.maxCapacity, h.hyper⟩

/-! ### What consumers make of a configuration -/

namespace Checked

variable {c : Config}

end Checked

end Config

end PairedTuning
