import DocAudit.Proofs.Config.Keys
import DocAudit.Proofs.Config.Reread
import DocAudit.Proofs.Config.Violations
import DocAudit.Proofs.Yaml.Number

/-!
# What comes from a text can be written

A configuration that a text describes has what its document needs to describe it again, unless its
sample ratio is the negative zero: that is written as a whole number, and whole numbers have only
one zero.

* `settled_iff_of_parse`: such a configuration is `Settled`;
* `reads_of_parse`: what is left of it in its document.
-/

namespace DocAudit.Config

open Yaml

variable {c : Config} {text : String}

/-- The sample ratio of a configuration without faults is a finite number. -/
theorem finite_of_faults_eq_nil (h : c.faults = []) : c.telemetry.tracing.sampleRatio.Finite := by
  have hvalid := faults_eq_nil_iff.mp h
  have hratio : Decimal.Binary64.le .zero c.telemetry.tracing.sampleRatio = true ∧
      c.telemetry.tracing.sampleRatio.le .one = true := by
    by_contra hout
    exact hvalid _ (.telemetry (.sampleRatio hout))
  exact Decimal.Binary64.finite_of_le hratio.1 hratio.2

/-- **A configuration that a text describes can be written**, but for the negative zero. -/
theorem settled_iff_of_parse (h : parse text = .ok c) :
    c.Settled ↔ c.telemetry.tracing.sampleRatio ≠ negZero := by
  unfold parse at h
  obtain ⟨_, hdecode, hchecked⟩ := bind_eq_ok_iff.mp h
  obtain ⟨hvalid, rfl⟩ := (Files.checked_eq_ok_iff _ _ _).mp hchecked
  have hsound := (keys_of_decodeBytes sound_default (mapError_eq_ok_iff.mp hdecode)).2
  have hfinite := finite_of_faults_eq_nil ((validate_eq_ok_iff c).mp hvalid)
  constructor
  · exact fun hsettled => (legible_iff hfinite).mp hsettled.ratio
  · exact fun hzero => ⟨hsound.visibilities, fun r hr n hn => (hsound.options r hr n hn).2,
      (legible_iff hfinite).mpr hzero⟩

/-- **What is left of a text's configuration in its document**, and under which severities. -/
theorem reads_of_parse (h : parse text = .ok c)
    (hzero : c.telemetry.tracing.sampleRatio ≠ negZero) :
    ∃ after, decodeOver .default c.toNode = .ok (c.reread after) ∧
      Merged c.defaults.severity.byVisibility Config.default.defaults.severity.byVisibility
        after := by
  obtain ⟨after, hmerged, hreads⟩ := reads_config ((settled_iff_of_parse h).mpr hzero)
  exact ⟨after, hreads.run, hmerged⟩

end DocAudit.Config
