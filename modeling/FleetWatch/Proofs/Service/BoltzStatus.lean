import FleetWatch.Proofs.Json.Members
import FleetWatch.Proofs.Service.CompositeStatus
import FleetWatch.Service.Probe
/-!
The status of boltz.

Boltz has a backend for each of its chains, and all are checked.  Main statement: while none of them
is there yet the failure of the first chain is passed on, and otherwise the report names the chains
that failed and tells of every chain whether it answered (`boltz_showsChains`).
-/

namespace FleetWatch

/-- A failure that says that the backend is not there yet, and not what it answered. -/
inductive RpcError.NotThereYet : RpcError → Prop
  | noClientYet : NotThereYet .noClientYet
  | credentialsUnavailable (reason : String) : NotThereYet (.credentialsUnavailable reason)
  | connectFailed (endpoint reason : String) : NotThereYet (.connectFailed endpoint reason)

theorem RpcError.isUnreachable_iff {e : RpcError} : e.isUnreachable ↔ e.NotThereYet := by
  constructor
  · intro h
    cases e with
    | noClientYet => exact .noClientYet
    | credentialsUnavailable reason => exact .credentialsUnavailable reason
    | connectFailed endpoint reason => exact .connectFailed endpoint reason
    | _ => cases h
  · intro h
    cases h <;> rfl

namespace Probe

theorem isUnreachable_iff {outcome : Except RpcError Unit} :
    isUnreachable outcome ↔ ∃ e, outcome = .error e ∧ e.NotThereYet := by
  cases outcome with
  | ok _ => simp [isUnreachable]
  | error e => simp [isUnreachable, RpcError.isUnreachable_iff]

theorem isReached_iff {outcome : Except RpcError Unit} :
    isReached outcome ↔ outcome = .ok () := by
  cases outcome <;> simp [isReached]

/-- What came of the check of each chain, by the chain's name. -/
abbrev ChainChecks :=
  List (String × Except RpcError Unit)

def reachText (reached : Bool) : String :=
  if reached then StatusReport.readyText else "unreachable"

theorem reachText_eq_ready_iff {reached : Bool} :
    reachText reached = StatusReport.readyText ↔ reached = true := by
  cases reached <;> decide

theorem reachText_bne_ready (reached : Bool) :
    (reachText reached != StatusReport.readyText) = !reached := by
  cases reached <;> decide

/-- A chain has no channels that it could lack. -/
theorem reachText_unmarked (reached : Bool) :
    ¬ noChannelsMark.toList <:+: (reachText reached).toList := by
  -- the mark is longer than either text
  intro hmark
  cases reached with
  | true => exact absurd hmark.length_le (by decide)
  | false => exact absurd hmark.length_le (by decide)

/-- The status of a chain by itself. -/
def chainStatus (check : String × Except RpcError Unit) : String × String :=
  (check.1, reachText (isReached check.2))

/-- Whether a chain answered, as a member of a document. -/
def chainDetail (check : String × Except RpcError Unit) : String × Json :=
  (check.1, .bool (isReached check.2))

section Report

variable {checks : ChainChecks} {check : String × Except RpcError Unit}

theorem chainStatus_ready_iff :
    (chainStatus check).2 = StatusReport.readyText ↔ check.2 = .ok () :=
  reachText_eq_ready_iff.trans isReached_iff

theorem report_text :
    (boltz.report checks).text = compositeStatus (checks.map chainStatus) := rfl

theorem report_detail (hsorted : (checks.map Prod.fst).Pairwise (· < ·)) :
    (boltz.report checks).detail = some (.object (checks.map chainDetail)) := by
  have hnames : ((checks.map chainDetail).map Prod.fst).Pairwise (· < ·) := by
    rwa [List.map_map]
  have hvalues : ∀ member ∈ checks.map chainDetail, member.2.sorted = member.2 := by
    rw [List.forall_mem_map]
    exact fun _ _ => rfl
  exact congrArg some (Json.sorted_object hnames hvalues)

theorem report_ready_iff :
    (boltz.report checks).text = StatusReport.readyText ↔ ∀ check ∈ checks, check.2 = .ok () := by
  rw [report_text, compositeStatus_eq_ready_iff, List.forall_mem_map]
  simp only [chainStatus_ready_iff]

/-- The chains that failed, in their order. -/
def failedChains (checks : ChainChecks) : List String :=
  (checks.filter fun check => !isReached check.2).map Prod.fst

theorem mem_failedChains_iff {chain : String} :
    chain ∈ failedChains checks ↔ ∃ e, (chain, .error e) ∈ checks := by
  rw [failedChains, List.mem_map]
  constructor
  · rintro ⟨⟨chain, outcome⟩, hmem, rfl⟩
    obtain ⟨hmem, hfailed⟩ := List.mem_filter.mp hmem
    cases outcome with
    | ok _ => cases hfailed
    | error e => exact ⟨e, hmem⟩
  · rintro ⟨e, hmem⟩
    exact ⟨_, List.mem_filter.mpr ⟨hmem, rfl⟩, rfl⟩

theorem pairwise_failedChains (hsorted : (checks.map Prod.fst).Pairwise (· < ·)) :
    (failedChains checks).Pairwise (· < ·) :=
  hsorted.sublist (List.filter_sublist.map Prod.fst)

theorem report_waiting (h : ∃ check ∈ checks, check.2 ≠ .ok ()) :
    (boltz.report checks).text = waitingText (failedChains checks) := by
  have hnot : ∃ c ∈ checks.map chainStatus, c.2 ≠ StatusReport.readyText := by
    obtain ⟨check, hmem, hfailed⟩ := h
    exact ⟨_, List.mem_map_of_mem hmem, fun hready => hfailed (chainStatus_ready_iff.mp hready)⟩
  have hmark : ∀ c ∈ checks.map chainStatus, ¬ noChannelsMark.toList <:+: c.2.toList := by
    rw [List.forall_mem_map]
    exact fun check _ => reachText_unmarked (isReached check.2)
  rw [report_text, compositeStatus_of_unmarked hnot hmark, List.filter_map, List.map_map,
    failedChains]
  simp only [Function.comp_def, chainStatus, reachText_bne_ready]

end Report

/-! ### The answer as a whole -/

section Answer

variable {checks : ChainChecks}

/-- While no chain is there yet the failure of the first one is passed on. -/
theorem boltz_of_unreachable {chain : String} {e : RpcError} {rest : ChainChecks}
    (h : ∀ check ∈ (chain, .error e) :: rest, ∃ e', check.2 = .error e' ∧ e'.NotThereYet) :
    boltz ((chain, .error e) :: rest) = .error e := by
  rw [boltz, if_pos]
  exact List.all_eq_true.mpr fun check hmem => isUnreachable_iff.mpr (h check hmem)

theorem boltz_of_reachable
    (h : ∃ check ∈ checks, ¬ ∃ e, check.2 = .error e ∧ e.NotThereYet) :
    boltz checks = .ok (boltz.report checks) := by
  unfold boltz
  split
  · rw [if_neg]
    intro hall
    obtain ⟨check, hmem, hreached⟩ := h
    exact hreached (isUnreachable_iff.mp (List.all_eq_true.mp hall check hmem))
  · rfl

end Answer

end Probe

/-- What the checks of some chains, in the order of their names, come to. -/
structure ShowsChains (checks : Probe.ChainChecks) (answer : Except RpcError StatusReport) :
    Prop where
  /-- Boltz is not there yet exactly if none of its chains is. -/
  fails_iff : (∃ e, answer = .error e) ↔
    ∀ check ∈ checks, ∃ e, check.2 = .error e ∧ e.NotThereYet
  /-- Then it fails as the chain does whose name is the least. -/
  fails_as : ∀ e, answer = .error e →
    ∃ chain, (chain, .error e) ∈ checks ∧ ∀ check ∈ checks, chain ≤ check.1
  ready_iff : ∀ report, answer = .ok report →
    (report.text = "Ready" ↔ ∀ check ∈ checks, check.2 = .ok ())
  /-- Otherwise the chains that failed are named in order. -/
  waiting_of : ∀ report, answer = .ok report → (∃ check ∈ checks, check.2 ≠ .ok ()) →
    ∃ waiting : List String, waiting.Pairwise (· < ·) ∧
      (∀ chain, chain ∈ waiting ↔ ∃ e, (chain, .error e) ∈ checks) ∧
      report.text = "Waiting for " ++ ", ".intercalate waiting
  /-- The details have one member for each chain, which tells whether it answered. -/
  detail_eq : ∀ report, answer = .ok report → ∃ members, report.detail = some (.object members) ∧
    members.map Prod.fst = checks.map Prod.fst ∧
    ∀ chain value, (chain, value) ∈ members ↔
      ((chain, .ok ()) ∈ checks ∧ value = .bool true) ∨
        ((∃ e, (chain, .error e) ∈ checks) ∧ value = .bool false)

section Checks

variable {checks : Probe.ChainChecks}

/-- The failure of the first chain, while no chain is there yet. -/
theorem failure_showsChains {chain : String} {e : RpcError}
    (hsorted : (((chain, .error e) :: checks).map Prod.fst).Pairwise (· < ·))
    (h : ∀ check ∈ (chain, .error e) :: checks, ∃ e', check.2 = .error e' ∧ e'.NotThereYet) :
    ShowsChains ((chain, .error e) :: checks) (.error e) where
  fails_iff := iff_of_true ⟨e, rfl⟩ h
  fails_as := by
    rintro _ ⟨⟩
    refine ⟨chain, List.mem_cons_self, List.forall_mem_cons.mpr ⟨le_refl chain, ?_⟩⟩
    intro check hmem
    exact (List.rel_of_pairwise_cons hsorted (List.mem_map_of_mem hmem)).le
  ready_iff := by
    rintro _ ⟨⟩
  waiting_of := by
    rintro _ ⟨⟩
  detail_eq := by
    rintro _ ⟨⟩

theorem mem_chainDetail_iff {chain : String} {value : Json} :
    (chain, value) ∈ checks.map Probe.chainDetail ↔
      ((chain, .ok ()) ∈ checks ∧ value = .bool true) ∨
        ((∃ e, (chain, .error e) ∈ checks) ∧ value = .bool false) := by
  rw [List.mem_map]
  constructor
  · rintro ⟨⟨chain, outcome⟩, hmem, hdetail⟩
    cases hdetail
    cases outcome with
    | ok _ => exact .inl ⟨hmem, rfl⟩
    | error e => exact .inr ⟨⟨e, hmem⟩, rfl⟩
  · rintro (⟨hmem, rfl⟩ | ⟨⟨e, hmem⟩, rfl⟩)
    · exact ⟨_, hmem, rfl⟩
    · exact ⟨_, hmem, rfl⟩

/-- The report, once a chain is there or fails in another way. -/
theorem report_showsChains (hsorted : (checks.map Prod.fst).Pairwise (· < ·))
    (h : ∃ check ∈ checks, ¬ ∃ e, check.2 = .error e ∧ e.NotThereYet) :
    ShowsChains checks (.ok (Probe.boltz.report checks)) where
  fails_iff := by
    refine iff_of_false (fun ⟨e, he⟩ => nomatch he) fun hall => ?_
    obtain ⟨check, hmem, hreached⟩ := h
    exact hreached (hall check hmem)
  fails_as := by
    rintro _ ⟨⟩
  ready_iff := by
    rintro _ ⟨⟩
    exact Probe.report_ready_iff
  waiting_of := by
    rintro _ ⟨⟩ hfailed
    exact ⟨Probe.failedChains checks, Probe.pairwise_failedChains hsorted,
      fun _ => Probe.mem_failedChains_iff, Probe.report_waiting hfailed⟩
  detail_eq := by
    rintro _ ⟨⟩
    exact ⟨_, Probe.report_detail hsorted, List.map_map, fun _ _ => mem_chainDetail_iff⟩

end Checks

/-- Whatever comes of the checks of some chains, boltz fails or is shown as they say. -/
theorem boltz_showsChains {checks : Probe.ChainChecks} (hne : checks ≠ [])
    (hsorted : (checks.map Prod.fst).Pairwise (· < ·)) :
    ShowsChains checks (Probe.boltz checks) := by
  by_cases h : ∀ check ∈ checks, ∃ e, check.2 = .error e ∧ e.NotThereYet
  · obtain ⟨⟨chain, outcome⟩, rest, rfl⟩ := List.exists_cons_of_ne_nil hne
    obtain ⟨e, rfl, -⟩ := h _ List.mem_cons_self
    rw [Probe.boltz_of_unreachable h]
    exact failure_showsChains hsorted h
  · push Not at h
    have hreached : ∃ check ∈ checks, ¬ ∃ e, check.2 = .error e ∧ e.NotThereYet := by
      simpa only [not_exists, not_and] using h
    rw [Probe.boltz_of_reachable hreached]
    exact report_showsChains hsorted hreached

/-- One chain is not there yet and one answers. -/
theorem twoChains_showsChains :
    ShowsChains [("btc", .error .noClientYet), ("ltc", .ok ())]
      (Probe.boltz [("btc", .error .noClientYet), ("ltc", .ok ())]) :=
  boltz_showsChains (List.cons_ne_nil _ _) (by decide)

end FleetWatch
