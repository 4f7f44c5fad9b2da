import FleetWatch.Service.Report
import Mathlib.Tactic.ByContra
/-!
One status out of several.

Components that are all ready are ready together, and otherwise they are not.  A component that has
no channels decides over those that are merely not ready, whose names are listed.
-/

namespace FleetWatch

variable {components : List (String × String)}

/-- What is shown while components are waited for. -/
def waitingText (names : List String) : String :=
  "Waiting for " ++ ", ".intercalate names

theorem waitingText_ne_ready (names : List String) :
    waitingText names ≠ StatusReport.readyText := by
  intro h
  have hfirst := congrArg (fun s : String => s.toList.head?) h
  simp [waitingText, StatusReport.readyText] at hfirst

theorem compositeStatus_of_ready (h : ∀ c ∈ components, c.2 = StatusReport.readyText) :
    compositeStatus components = StatusReport.readyText := by
  rw [compositeStatus, if_pos]
  simpa using h

theorem not_marked_readyText :
    ¬ noChannelsMark.toList <:+: StatusReport.readyText.toList := by
  decide

theorem compositeStatus_of_marked
    (hmark : ∃ c ∈ components, noChannelsMark.toList <:+: c.2.toList) :
    compositeStatus components = waitingForChannelsText := by
  have hnot : ∃ c ∈ components, c.2 ≠ StatusReport.readyText := by
    obtain ⟨c, hc, hmark⟩ := hmark
    refine ⟨c, hc, fun hready => not_marked_readyText ?_⟩
    rwa [hready] at hmark
  rw [compositeStatus, if_neg, if_pos]
  · simpa [Text.contains_iff_infix] using hmark
  · simpa using hnot

theorem compositeStatus_of_unmarked (hnot : ∃ c ∈ components, c.2 ≠ StatusReport.readyText)
    (hmark : ∀ c ∈ components, ¬ noChannelsMark.toList <:+: c.2.toList) :
    compositeStatus components =
      waitingText ((components.filter fun c => c.2 != StatusReport.readyText).map Prod.fst) := by
  rw [compositeStatus, if_neg, if_neg, waitingText]
  · simpa [Text.contains_iff_infix] using hmark
  · simpa using hnot

/-- Several components are ready together exactly if each is. -/
theorem compositeStatus_eq_ready_iff :
    compositeStatus components = StatusReport.readyText ↔
      ∀ c ∈ components, c.2 = StatusReport.readyText := by
  refine ⟨fun h => ?_, compositeStatus_of_ready⟩
  by_contra hnot
  push Not at hnot
  by_cases hmark : ∃ c ∈ components, noChannelsMark.toList <:+: c.2.toList
  · rw [compositeStatus_of_marked hmark] at h
    exact absurd h (by decide)
  · push Not at hmark
    rw [compositeStatus_of_unmarked hnot hmark] at h
    exact waitingText_ne_ready _ h

/-- Unless the names of some components read like it, the lack of channels is shown exactly if a
component has none. -/
theorem compositeStatus_eq_channels_iff
    (hnames : ∀ p : String × String → Bool,
      waitingText ((components.filter p).map Prod.fst) ≠ waitingForChannelsText) :
    compositeStatus components = waitingForChannelsText ↔
      ∃ c ∈ components, noChannelsMark.toList <:+: c.2.toList := by
  refine ⟨fun h => ?_, compositeStatus_of_marked⟩
  by_contra hmark
  push Not at hmark
  by_cases hready : ∀ c ∈ components, c.2 = StatusReport.readyText
  · rw [compositeStatus_of_ready hready] at h
    exact absurd h (by decide)
  · push Not at hready
    rw [compositeStatus_of_unmarked hready hmark] at h
    exact hnames _ h

end FleetWatch
