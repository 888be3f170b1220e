import ColumnFlow.Command.Run

/-!
# What reports decide

The totals of a report are compared with the results it was made of: when a strict run fails, when a risk report does,
and what the checks of a health report say of the same findings.
-/

namespace ColumnFlow

namespace Report

theorem map_lineage_entries (paths : List String) (ls : List Lineage) :
    (Report.ofLineages paths ls).entries.map (·.lineage) = ls := by
  simp [ofLineages, Function.comp_def, List.zipIdx_map_fst]

/-- What is listed of every entry, whatever it is called, is listed of every result. -/
theorem flatMap_entries {α : Type} (paths : List String) (ls : List Lineage) (f : Lineage → List α) :
    ((Report.ofLineages paths ls).entries.flatMap fun e => f e.lineage) = ls.flatMap f := by
  have all := List.flatMap_map (·.lineage) f (l := (Report.ofLineages paths ls).entries)
  rw [map_lineage_entries] at all
  exact all.symm

end Report

namespace Summary

variable (ls : List Lineage)

/-- A total over all results is the length of what they list together. -/
theorem foldr_length {α : Type} (f : Lineage → List α) :
    (ls.map fun l => (f l).length).foldr (· + ·) 0 = (ls.flatMap f).length := by
  induction ls with
  | nil => rfl
  | cons l ls ih => simp [ih]

theorem failed_pos_iff : 0 < (ofLineages ls).failed ↔ ∃ l ∈ ls, l.edges = [] ∧ l.parseErrors ≠ [] := by
  simp [ofLineages, List.length_pos_iff, List.filter_eq_nil_iff, Lineage.hasFailed]

theorem gaps_pos_iff : 0 < (ofLineages ls).gaps ↔ ∃ l ∈ ls, l.gaps ≠ [] := by
  have total : (ofLineages ls).gaps = (ls.flatMap (·.gaps)).length := foldr_length ls (·.gaps)
  rw [total, List.length_pos_iff]
  simp [List.flatMap_eq_nil_iff]

theorem findings_eq : (ofLineages ls).findings = (ls.flatMap (·.findings)).length := foldr_length ls (·.findings)

end Summary

/-! ### Strict runs -/

theorem strictGate_isSome (report : Report) :
    (strictGate report).isSome = true ↔ 0 < report.summary.failed ∨ 0 < report.summary.gaps := by
  unfold strictGate
  split
  · simp_all
  · split <;> simp_all

/-- A strict run fails exactly if some result has gaps, or has parse errors and no edges. A parse error is passed over
where its result has edges, so that every parse error counts unless all of them stand in such results and there is no
gap. -/
theorem strictGate_iff (paths : List String) (ls : List Lineage) :
    let gate := strictGate (Report.ofLineages paths ls)
    let counted := ∃ l ∈ ls, l.edges = [] ∧ l.parseErrors ≠ [] ∨ l.gaps ≠ []
    (gate.isSome = true ↔ counted) ∧
      ((gate.isSome = true ↔ ∃ l ∈ ls, l.parseErrors ≠ [] ∨ l.gaps ≠ []) ↔
        ((∃ l ∈ ls, l.edges ≠ [] ∧ l.parseErrors ≠ []) → counted)) := by
  intro gate counted
  have fails : gate.isSome = true ↔ counted := by
    refine (strictGate_isSome _).trans ?_
    show 0 < (Summary.ofLineages ls).failed ∨ 0 < (Summary.ofLineages ls).gaps ↔ counted
    rw [Summary.failed_pos_iff, Summary.gaps_pos_iff]
    constructor
    · rintro (⟨l, mem, failed⟩ | ⟨l, mem, gaps⟩)
      · exact ⟨l, mem, .inl failed⟩
      · exact ⟨l, mem, .inr gaps⟩
    · rintro ⟨l, mem, failed | gaps⟩
      · exact .inl ⟨l, mem, failed⟩
      · exact .inr ⟨l, mem, gaps⟩
  have every : counted → ∃ l ∈ ls, l.parseErrors ≠ [] ∨ l.gaps ≠ [] := by
    rintro ⟨l, mem, failed | gaps⟩
    · exact ⟨l, mem, .inl failed.2⟩
    · exact ⟨l, mem, .inr gaps⟩
  refine ⟨fails, ?_⟩
  rw [fails]
  constructor
  · rintro same ⟨l, mem, _, errors⟩
    exact same.mpr ⟨l, mem, .inl errors⟩
  · intro partly
    refine ⟨every, ?_⟩
    rintro ⟨l, mem, errors | gaps⟩
    · by_cases edges : l.edges = []
      · exact ⟨l, mem, .inl ⟨edges, errors⟩⟩
      · exact partly ⟨l, mem, edges, errors⟩
    · exact ⟨l, mem, .inr gaps⟩

-- The second statement is lost, and the run does not fail.
example :
    let lineage := extractText "INSERT INTO t (x) SELECT a FROM u; SELECT FROM" {}
    lineage.parseErrors.length = 1 ∧ strictGate (Report.ofLineages [] [lineage]) = none := by
  decide +kernel

/-! ### The highest risk -/

namespace RiskLevel

theorem rank_max (a b : RiskLevel) : (a.max b).rank = Nat.max a.rank b.rank := by
  cases a <;> cases b <;> rfl

theorem max_eq (a b : RiskLevel) : a.max b = a ∨ a.max b = b := by
  unfold max
  split
  · exact .inr rfl
  · exact .inl rfl

variable {a b : RiskLevel}

theorem rank_inj (same : a.rank = b.rank) : a = b := by
  cases a <;> cases b <;> simp_all [rank]

/-- Some finding has the risk, and none has a higher one. -/
def IsHighest (risk : RiskLevel) (findings : List Finding) : Prop :=
  (∃ f ∈ findings, f.risk = risk) ∧ ∀ f ∈ findings, f.risk.rank ≤ risk.rank

theorem IsHighest.unique {findings : List Finding} (ha : a.IsHighest findings) (hb : b.IsHighest findings) : a = b := by
  obtain ⟨f, inside, rfl⟩ := ha.1
  obtain ⟨g, inside', rfl⟩ := hb.1
  exact rank_inj (Nat.le_antisymm (hb.2 f inside) (ha.2 g inside'))

theorem IsHighest.append {fs gs : List Finding} (ha : a.IsHighest fs) (hb : b.IsHighest gs) :
    (a.max b).IsHighest (fs ++ gs) := by
  constructor
  · rcases max_eq a b with left | right
    · obtain ⟨f, mem, risk⟩ := ha.1
      exact ⟨f, List.mem_append_left _ mem, risk.trans left.symm⟩
    · obtain ⟨f, mem, risk⟩ := hb.1
      exact ⟨f, List.mem_append_right _ mem, risk.trans right.symm⟩
  · intro f mem
    rw [rank_max]
    rcases List.mem_append.mp mem with mem | mem
    · exact Nat.le_trans (ha.2 f mem) (Nat.le_max_left _ _)
    · exact Nat.le_trans (hb.2 f mem) (Nat.le_max_right _ _)

/-- A threshold is reached by some finding exactly if the highest risk reaches it. -/
theorem IsHighest.reaches {risk threshold : RiskLevel} {findings : List Finding} (h : risk.IsHighest findings) :
    (∃ f ∈ findings, f.risk.reaches (some threshold) = true) ↔ threshold.rank ≤ risk.rank := by
  simp only [RiskLevel.reaches, decide_eq_true_eq]
  constructor
  · rintro ⟨f, mem, le⟩
    exact Nat.le_trans le (h.2 f mem)
  · intro le
    obtain ⟨f, mem, rfl⟩ := h.1
    exact ⟨f, mem, le⟩

end RiskLevel

/-- The highest risk of the findings, absent without any. -/
def Tracks (findings : List Finding) : Option RiskLevel → Prop
  | none => findings = []
  | some risk => risk.IsHighest findings

namespace Tracks

variable {fs gs : List Finding} {a b : Option RiskLevel}

theorem isSome_iff (h : Tracks fs a) : a.isSome = true ↔ fs ≠ [] := by
  cases a with
  | none => simpa [Tracks] using h
  | some risk =>
    obtain ⟨⟨f, mem, _⟩, _⟩ := h
    simpa using List.ne_nil_of_mem mem

theorem eq_some_iff (h : Tracks fs a) {risk : RiskLevel} : a = some risk ↔ risk.IsHighest fs := by
  cases a with
  | none =>
    subst h
    simp [RiskLevel.IsHighest]
  | some found =>
    rw [Option.some.injEq]
    exact ⟨fun same => same ▸ h, fun highest => RiskLevel.IsHighest.unique h highest⟩

/-- The highest risk of two lists is the higher one of theirs. -/
theorem append (ha : Tracks fs a) (hb : Tracks gs b) : Tracks (fs ++ gs) (Summary.higher a b) := by
  match a, b with
  | none, b =>
    subst ha
    exact hb
  | some a, none =>
    subst hb
    rw [List.append_nil]
    exact ha
  | some a, some b => exact RiskLevel.IsHighest.append ha hb

/-- The findings of one result, which start from low: with a finding at hand low is reached or passed. -/
theorem highestRisk (f : Finding) (fs : List Finding) :
    ((f :: fs).foldl (fun risk f => risk.max f.risk) RiskLevel.low).IsHighest (f :: fs) := by
  have single (f : Finding) : f.risk.IsHighest [f] := by simp [RiskLevel.IsHighest]
  have rounds : ∀ (fs gs : List Finding) (risk : RiskLevel), risk.IsHighest gs →
      (fs.foldl (fun risk f => risk.max f.risk) risk).IsHighest (gs ++ fs) := by
    intro fs
    induction fs with
    | nil => exact fun gs risk h => by rwa [List.append_nil]
    | cons f fs ih =>
      intro gs risk h
      rw [List.foldl_cons, List.append_cons]
      exact ih _ _ (h.append (single f))
  have low : RiskLevel.low.max f.risk = f.risk := by cases f.risk <;> rfl
  rw [List.foldl_cons, low]
  exact rounds fs [f] f.risk (single f)

theorem riskOf (l : Lineage) : Tracks l.findings (Summary.riskOf l) := by
  unfold Summary.riskOf Lineage.hasDynamicCode Lineage.highestRisk
  cases l.findings with
  | nil => rfl
  | cons f fs => exact highestRisk f fs

/-- By induction on the lineages, as their summaries are added up. -/
theorem ofLineages (ls : List Lineage) : Tracks (ls.flatMap (·.findings)) (Summary.ofLineages ls).highestRisk := by
  have rounds : ∀ (ls : List Lineage) (fs : List Finding) (risk : Option RiskLevel), Tracks fs risk →
      Tracks (fs ++ ls.flatMap (·.findings)) (ls.foldl (fun risk l => Summary.higher risk (Summary.riskOf l)) risk) := by
    intro ls
    induction ls with
    | nil => exact fun fs risk h => by rwa [List.flatMap_nil, List.append_nil]
    | cons l ls ih =>
      intro fs risk h
      rw [List.foldl_cons, List.flatMap_cons, ← List.append_assoc]
      exact ih _ _ (h.append (riskOf l))
  exact rounds ls [] none rfl

end Tracks

/-! ### Verdicts on risk -/

namespace RiskReport

theorem map_findings (paths : List String) (ls : List Lineage) (threshold : Option RiskLevel) :
    (RiskReport.ofReport (Report.ofLineages paths ls) threshold).findings.map (·.finding) = ls.flatMap (·.findings) := by
  simp only [ofReport, List.map_flatMap, List.map_map, Function.comp_def, List.map_id']
  exact Report.flatMap_entries paths ls (·.findings)

/-- The highest risk reaches the threshold just when some risk does, as reaching goes upwards. -/
theorem exceeded_iff (paths : List String) (ls : List Lineage) (threshold : Option RiskLevel) :
    (RiskReport.ofReport (Report.ofLineages paths ls) threshold).exceeded = true ↔
      ∃ f ∈ ls.flatMap (·.findings), f.risk.reaches threshold = true := by
  rw [← map_findings paths ls threshold]
  refine List.any_eq_true.trans ⟨?_, ?_⟩
  · rintro ⟨f, mem, reached⟩
    exact ⟨f.finding, List.mem_map_of_mem mem, reached⟩
  · rintro ⟨_, mem, reached⟩
    obtain ⟨f, found, rfl⟩ := List.mem_map.mp mem
    exact ⟨f, found, reached⟩

end RiskReport

namespace HealthReport

/-- The check of a rule. -/
def check? (h : HealthReport) (rule : String) : Option HealthCheck := h.checks.find? (·.rule == rule)

theorem length_findingDetails (paths : List String) (ls : List Lineage) (keep : Finding → Bool) :
    (findingDetails (Report.ofLineages paths ls) keep).length = ((ls.flatMap (·.findings)).filter keep).length := by
  rw [List.filter_flatMap, ← Report.flatMap_entries paths ls fun l => l.findings.filter keep]
  simp [findingDetails, details, List.length_flatMap]

theorem check?_gated (report : Report) (setup : HealthSetup) :
    (ofReport report setup).check? "DS01" = some (.ofDetails "DS01" "No dynamic SQL at or above threshold" "dynamic sql"
      .error (findingDetails report fun f => f.risk.reaches setup.threshold)) := rfl

theorem check?_ungated (report : Report) (setup : HealthSetup) :
    (ofReport report setup).check? "DS02" = some (.ofDetails "DS02" "No dynamic SQL below threshold" "dynamic sql"
      .warn (findingDetails report fun f => !f.risk.reaches setup.threshold)) := rfl

end HealthReport

namespace HealthCheck

theorem ofDetails_error_iff (rule name group : String) (details : List String) :
    (ofDetails rule name group .error details).status = .error ↔ details ≠ [] := by
  cases details <;> simp [ofDetails]

end HealthCheck

theorem reaches_isSome {risk : RiskLevel} {threshold : Option RiskLevel} (h : risk.reaches threshold = true) :
    threshold.isSome = true := by
  cases threshold with
  | none => simp [RiskLevel.reaches] at h
  | some threshold => rfl

/-- Risk report, summary and health report agree on whether the threshold is reached; the summary has the highest risk
of all findings, and the two checks on dynamic code share out the findings that the risk report lists. -/
theorem risk_verdicts_agree (paths : List String) (ls : List Lineage) (setup : HealthSetup) :
    let report := Report.ofLineages paths ls
    let risks := RiskReport.ofReport report setup.threshold
    let findings := ls.flatMap (·.findings)
    (risks.exceeded = true ↔ ∃ threshold risk, setup.threshold = some threshold ∧
        report.summary.highestRisk = some risk ∧ threshold.rank ≤ risk.rank) ∧
      (report.summary.highestRisk.isSome = true ↔ findings ≠ []) ∧
      (∀ risk, report.summary.highestRisk = some risk ↔ risk.IsHighest findings) ∧
      (∃ gated ungated, (HealthReport.ofReport report setup).check? "DS01" = some gated ∧
        (HealthReport.ofReport report setup).check? "DS02" = some ungated ∧
        (risks.exceeded = true ↔ setup.threshold.isSome = true ∧ gated.status = .error) ∧
        gated.outcome.issues + ungated.outcome.issues = report.summary.findings) ∧
      report.summary.findings = risks.findings.length := by
  intro report risks findings
  have tracks : Tracks findings report.summary.highestRisk := .ofLineages ls
  have exceeded : risks.exceeded = true ↔ ∃ f ∈ findings, f.risk.reaches setup.threshold = true :=
    RiskReport.exceeded_iff paths ls setup.threshold
  refine ⟨?_, tracks.isSome_iff, fun risk => tracks.eq_some_iff, ⟨_, _, HealthReport.check?_gated report setup,
    HealthReport.check?_ungated report setup, ?_, ?_⟩, ?_⟩
  · rw [exceeded]
    constructor
    · rintro ⟨f, mem, reached⟩
      obtain ⟨threshold, gate⟩ := Option.isSome_iff_exists.mp (reaches_isSome reached)
      obtain ⟨risk, found⟩ := Option.isSome_iff_exists.mp (tracks.isSome_iff.mpr (List.ne_nil_of_mem mem))
      rw [gate] at reached
      exact ⟨threshold, risk, gate, found, (tracks.eq_some_iff.mp found).reaches.mp ⟨f, mem, reached⟩⟩
    · rintro ⟨threshold, risk, gate, found, le⟩
      rw [gate]
      exact (tracks.eq_some_iff.mp found).reaches.mpr le
  · rw [exceeded, HealthCheck.ofDetails_error_iff, ← List.length_pos_iff, HealthReport.length_findingDetails,
      List.length_pos_iff_exists_mem]
    constructor
    · rintro ⟨f, mem, reached⟩
      exact ⟨reaches_isSome reached, f, List.mem_filter.mpr ⟨mem, reached⟩⟩
    · rintro ⟨_, f, mem⟩
      exact ⟨f, List.mem_filter.mp mem⟩
  · have shared : findings.length = (findings.filter fun f => f.risk.reaches setup.threshold).length +
        (findings.filter fun f => !f.risk.reaches setup.threshold).length := by
      simpa [List.countP_eq_length_filter] using
        List.length_eq_countP_add_countP (l := findings) fun f => f.risk.reaches setup.threshold
    have total : report.summary.findings = findings.length := Summary.findings_eq ls
    simp only [HealthCheck.outcome, HealthCheck.ofDetails]
    rw [HealthReport.length_findingDetails, HealthReport.length_findingDetails, total, shared]
    exact (Int.natCast_add _ _).symm
  · rw [← List.length_map (·.finding), RiskReport.map_findings]
    exact Summary.findings_eq ls

end ColumnFlow
