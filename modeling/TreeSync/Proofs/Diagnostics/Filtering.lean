import Mathlib.Logic.Basic
import TreeSync.Diagnostics.Journal

namespace TreeSync

/-! Which reports the filter of a verbosity lets through.

A report is kept if its own category is set high enough, while the filter is drawn from the
highest of them all. The two would agree if none were left out of that.
-/

/-- Whether a report has a level of its own. One at level zero is shown even by a category that is
switched off. -/
def Event.Ranked : Event → Prop
  | .info _ level _ | .debug _ level _ => 1 ≤ level
  | .warning _ => True

/-- Whether a report is about an entry that was skipped for its kind. -/
def Event.OfSkipped (event : Event) : Prop :=
  ∃ level message, event = .info .nonRegular level message

/-- Whether nothing but reports of skipped entries is enabled, if even that. -/
def Verbosity.OnlySkipped (verbosity : Verbosity) : Prop :=
  (∀ flag, flag ≠ .nonRegular → verbosity.info flag = 0) ∧ ∀ flag, verbosity.debug flag = 0

/-- Whether a report is shown under a verbosity. -/
def Verbosity.Shows (verbosity : Verbosity) : Event → Prop
  | .info flag level _ => level ≤ verbosity.info flag
  | .debug flag level _ => level ≤ verbosity.debug flag
  | .warning _ => True

namespace Journal

/-- Reports something, which is only kept if it is shown. -/
def report (journal : Journal) : Event → Journal
  | .info flag level message => journal.info flag level message
  | .debug flag level message => journal.debug flag level message
  | .warning message => journal.warn message

/-- A report adds nothing or itself, and itself only if it is shown. -/
theorem report_cases (journal : Journal) (event : Event) :
    journal.report event = journal ∨
      journal.report event = journal.keep event ∧ journal.verbosity.Shows event := by
  cases event with
  | info flag level message =>
      by_cases shown : level ≤ journal.verbosity.info flag
      · exact .inr ⟨if_pos (decide_eq_true shown), shown⟩
      · exact .inl (if_neg (by simpa [showsInfo] using shown))
  | debug flag level message =>
      by_cases shown : level ≤ journal.verbosity.debug flag
      · exact .inr ⟨if_pos (decide_eq_true shown), shown⟩
      · exact .inl (if_neg (by simpa [showsDebug] using shown))
  | warning message => exact .inr ⟨rfl, trivial⟩

/-- All that is kept of a series of reports is shown. -/
theorem shows_of_mem_reports {journal : Journal} (reports : List Event)
    (shown : ∀ event ∈ journal.events, journal.verbosity.Shows event) :
    ∀ event ∈ (reports.foldl report journal).events, journal.verbosity.Shows event := by
  induction reports generalizing journal with
  | nil => exact shown
  | cons first rest ih =>
      rw [List.foldl_cons]
      rcases journal.report_cases first with same | ⟨kept, new⟩
      · rw [same]
        exact ih shown
      · rw [kept]
        have shown' : ∀ event ∈ (journal.keep first).events, journal.verbosity.Shows event := by
          intro event member
          rcases List.mem_append.mp member with earlier | last
          · exact shown event earlier
          · exact List.mem_singleton.mp last ▸ new
        exact ih shown'

end Journal

namespace Verbosity

theorem lt_max_iff {bound first second : UInt8} :
    bound < max first second ↔ bound < first ∨ bound < second := by
  change bound < (if first ≤ second then second else first) ↔ _
  split
  · next le => exact ⟨.inr, fun either => either.elim (UInt8.lt_of_lt_of_le · le) id⟩
  · next more =>
    have less := UInt8.not_le.mp more
    exact ⟨.inl, fun either => either.elim id fun lower => UInt8.lt_trans lower less⟩

theorem lt_foldl_max_iff {levels : List UInt8} {first bound : UInt8} :
    bound < levels.foldl max first ↔ bound < first ∨ ∃ level ∈ levels, bound < level := by
  induction levels generalizing first with
  | nil => simp
  | cons level rest ih =>
      rw [List.foldl_cons, ih, lt_max_iff]
      simp [or_assoc]

theorem lt_highest_iff {α : Type} {flags : List α} {level : α → UInt8} {bound : UInt8} :
    bound < (flags.map level).foldl max 0 ↔ ∃ flag ∈ flags, bound < level flag := by
  rw [lt_foldl_max_iff, or_iff_right UInt8.not_lt_zero]
  simp only [List.mem_map, exists_exists_and_eq_and]

variable {verbosity : Verbosity} {bound : UInt8}

theorem lt_highestInfo_iff :
    bound < verbosity.highestInfo ↔ ∃ flag, flag ≠ .nonRegular ∧ bound < verbosity.info flag := by
  simp [highestInfo, lt_highest_iff, InfoFlag.mem_all]

theorem lt_highestDebug_iff :
    bound < verbosity.highestDebug ↔ ∃ flag, bound < verbosity.debug flag := by
  simp [highestDebug, lt_highest_iff, DebugFlag.mem_all]

theorem lt_maxLevel_iff (low : bound < 2) :
    bound < verbosity.maxLevel ↔
      (∃ flag, flag ≠ .nonRegular ∧ bound < verbosity.info flag) ∨
        ∃ flag, 0 < verbosity.debug flag := by
  rw [← lt_highestInfo_iff, ← lt_highestDebug_iff, maxLevel]
  split
  · next debugs => simp [lt_max_iff, low, debugs]
  · next quiet => simp [quiet]

theorem threshold_admits_iff :
    (verbosity.threshold.admits .info = true ↔ 0 < verbosity.maxLevel) ∧
      (verbosity.threshold.admits .debug = true ↔ 1 < verbosity.maxLevel) := by
  unfold threshold
  split
  · next nothing => simp [nothing, Severity.admits, Severity.rank]
  · next one => simp [one, Severity.admits, Severity.rank]
  · next nothing one =>
    have positive : verbosity.maxLevel.toNat ≠ 0 := fun zero => nothing (UInt8.toNat_inj.mp zero)
    have further : verbosity.maxLevel.toNat ≠ 1 := fun same => one (UInt8.toNat_inj.mp same)
    have above : 1 < verbosity.maxLevel := UInt8.lt_iff_toNat_lt.mpr (by change 1 < _; omega)
    have low : 0 < verbosity.maxLevel := UInt8.lt_trans (by decide) above
    simp [Severity.admits, Severity.rank, above, low]

theorem pos_maxLevel_iff : 0 < verbosity.maxLevel ↔ ¬ verbosity.OnlySkipped := by
  have zero_iff {level : UInt8} : 0 < level ↔ ¬ level = 0 := UInt8.pos_iff_ne_zero
  rw [lt_maxLevel_iff (by decide)]
  simp only [zero_iff, OnlySkipped, not_and_or, not_forall, exists_prop]

/-- A report that is shown passes the filter, unless it is one of a skipped entry and only such
reports are enabled. -/
theorem admits_of_shows {event : Event} (shown : verbosity.Shows event) (ranked : event.Ranked) :
    verbosity.threshold.admits event.severity = true ↔
      ¬ (event.OfSkipped ∧ verbosity.OnlySkipped) := by
  cases event with
  | info flag level message =>
      rw [Event.severity, threshold_admits_iff.1, pos_maxLevel_iff]
      by_cases skipped : flag = .nonRegular
      · simp [Event.OfSkipped, skipped]
      · have enabled : 0 < verbosity.info flag :=
          UInt8.lt_of_lt_of_le (by decide) (UInt8.le_trans ranked shown)
        have used : ¬ verbosity.OnlySkipped := fun only =>
          UInt8.pos_iff_ne_zero.mp enabled (only.1 flag skipped)
        simp [used]
  | debug flag level message =>
      have enabled : 0 < verbosity.debug flag :=
        UInt8.lt_of_lt_of_le (by decide) (UInt8.le_trans ranked shown)
      rw [Event.severity, threshold_admits_iff.2, lt_maxLevel_iff (by decide)]
      simp only [Event.OfSkipped, reduceCtorEq, exists_false, false_and, not_false_iff, iff_true]
      exact .inr ⟨flag, enabled⟩
  | warning message => simp [Event.OfSkipped, Event.severity, Severity.admits, Severity.rank]

/-- The filter loses no report that is worth being filtered for, except those of skipped entries
where no other category is enabled. It is drawn from all categories but that one. -/
theorem threshold_admits (verbosity : Verbosity) (reports : List Event) :
    (∀ event ∈ (reports.foldl Journal.report { verbosity }).events, event.Ranked →
      (verbosity.threshold.admits event.severity = true ↔
        ¬ (event.OfSkipped ∧ verbosity.OnlySkipped))) ∧
    (verbosity.threshold.admits .info = true ↔
      (∃ flag, flag ≠ .nonRegular ∧ 0 < verbosity.info flag) ∨
        ∃ flag, 0 < verbosity.debug flag) ∧
    (verbosity.threshold.admits .debug = true ↔
      (∃ flag, flag ≠ .nonRegular ∧ 1 < verbosity.info flag) ∨
        ∃ flag, 0 < verbosity.debug flag) ∧
    verbosity.threshold.admits .warning = true := by
  refine ⟨fun event kept => ?_, ?_, ?_, ?_⟩
  · exact admits_of_shows (Journal.shows_of_mem_reports reports (by simp) event kept)
  · rw [threshold_admits_iff.1, lt_maxLevel_iff (by decide)]
  · rw [threshold_admits_iff.2, lt_maxLevel_iff (by decide)]
  · simp [Severity.admits, Severity.rank]

/-- With one switch the reports of skipped entries pass. -/
theorem threshold_admits_first_switch :
    Event.info .nonRegular 1 "skipped" ∈
        (([.info .nonRegular 1 "skipped"] : List Event).foldl Journal.report
          { verbosity := .ofCount 1 }).events ∧
      (ofCount 1).threshold.admits .info = true := by
  have kept : Event.info .nonRegular 1 "skipped" ∈
      (([.info .nonRegular 1 "skipped"] : List Event).foldl Journal.report
        { verbosity := .ofCount 1 }).events := by decide
  refine ⟨kept, ((threshold_admits (.ofCount 1) _).1 _ kept (UInt8.le_refl 1)).mpr ?_⟩
  rintro ⟨-, info, -⟩
  exact absurd (info .misc (by decide)) (by decide)

/-- Without any switch they are kept, and the filter does not let them through. -/
theorem threshold_drops_skipped :
    Event.info .nonRegular 1 "skipped" ∈
        (([.info .nonRegular 1 "skipped"] : List Event).foldl Journal.report
          { verbosity := .ofCount 0 }).events ∧
      (Event.info .nonRegular 1 "skipped").Ranked ∧
      (ofCount 0).threshold.admits (Event.info .nonRegular 1 "skipped").severity = false :=
  ⟨by decide, UInt8.le_refl 1, by decide⟩

end Verbosity

end TreeSync
