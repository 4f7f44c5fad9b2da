import FleetWatch.Proofs.Fleet.StatusRules
/-!
How a status is derived.

`Asks` says what asking a question of a status query does to a fleet.  Main statement: whatever a
fleet answers, the status of a service is what the rules make of the questions that were asked, and of
nothing else.  The probe is called at most once, and only after the service's own container was found
running.
-/

namespace FleetWatch

/-! ### Asking a fleet -/

/-- A probe, whatever the number of its calls. -/
def ServiceProbe.sansCalls : ServiceProbe → ServiceProbe
  | .scripted outcome _ stopped => .scripted outcome 0 stopped
  | probe => probe

/-- A service, whatever the number of its probe's calls. -/
def Service.sansCalls (s : Service) : Service :=
  { s with probe := s.probe.sansCalls }

/-- What a fleet answers to a question of a service's status query, and the fleet after it. -/
inductive Asks (place : Nat) (s : Service) : Fleet → StatusQuestion → Fleet → Prop
  | environment (f : Fleet) (peer : Nat) (key : String) :
    Asks place s f (.environment peer key ((f.site peer).getenv key).1)
      (f.putSite peer ((f.site peer).getenv key).2)
  | look (f : Fleet) :
    Asks place s f (.look (f.engine.inspect (f.handle s.handle).name).1) (f.refresh s.handle).2
  | probe (f : Fleet) : Asks place s f (.probe (f.ask place s).1) (f.ask place s).2

/-- Questions that are asked one after the other, each of the fleet that the last one left. -/
inductive AskedInTurn (place : Nat) (s : Service) : Fleet → List StatusQuestion → Fleet → Prop
  | none (f : Fleet) : AskedInTurn place s f [] f
  | next {f g h question rest} (hfirst : Asks place s f question g)
      (hrest : AskedInTurn place s g rest h) : AskedInTurn place s f (question :: rest) h

variable {f : Fleet} {place : Nat} {s : Service}

theorem AskedInTurn.append {qs rest : List StatusQuestion} {g h : Fleet}
    (hfirst : AskedInTurn place s f qs g) (hrest : AskedInTurn place s g rest h) :
    AskedInTurn place s f (qs ++ rest) h := by
  induction hfirst with
  | none => exact hrest
  | next hask _ ih => exact .next hask (ih hrest)

/-! ### What asking leaves as it is -/

/-- Asking changes the engine, the handles, and of the services at most how often the probe of the
one that is asked was called. -/
theorem Asks.changes {q : StatusQuestion} {g : Fleet} (h : Asks place s f q g) :
    ∃ engine handles services, g = { f with engine, handles, services } ∧
      handles.length = f.handles.length ∧ (services = f.services ∨
        ∃ probe, probe.sansCalls = s.probe.sansCalls ∧
          services = f.services.set place { s with probe }) := by
  cases h with
  | environment | look => exact ⟨_, _, _, rfl, List.length_set, .inl rfl⟩
  | probe =>
    unfold Fleet.ask
    cases s.probe with
    | none | chainDaemon | geth | connext | boltz => exact ⟨_, _, _, rfl, rfl, .inl rfl⟩
    | scripted outcome calls stopped =>
      have hsame : (ServiceProbe.scripted outcome (calls + 1) stopped).sansCalls =
          (ServiceProbe.scripted outcome calls stopped).sansCalls := rfl
      cases outcome <;> exact ⟨_, _, _, rfl, rfl, .inr ⟨_, hsame, rfl⟩⟩
    | lnd c =>
      simp only
      split
      · exact ⟨_, _, _, rfl, rfl, .inl rfl⟩
      · exact ⟨_, _, _, rfl, List.length_set, .inl rfl⟩
    | xud c =>
      simp only
      split
      · exact ⟨_, _, _, rfl, rfl, .inl rfl⟩
      · exact ⟨_, _, _, rfl, List.length_set, .inl rfl⟩
      · exact ⟨_, _, _, rfl, rfl, .inl rfl⟩

theorem AskedInTurn.changes {qs : List StatusQuestion} {g : Fleet}
    (h : AskedInTurn place s f qs g) :
    ∃ engine handles services, g = { f with engine, handles, services } ∧
      handles.length = f.handles.length := by
  induction h with
  | none => exact ⟨_, _, _, rfl, rfl⟩
  | next hfirst _ ih =>
    obtain ⟨_, _, _, rfl, hfirst, _⟩ := hfirst.changes
    obtain ⟨_, _, _, rfl, hrest⟩ := ih
    exact ⟨_, _, _, rfl, hrest.trans hfirst⟩

theorem Asks.services {q : StatusQuestion} {g : Fleet} (h : Asks place s f q g)
    (hs : (f.services.map Service.sansCalls)[place]? = some s.sansCalls) :
    g.services.map Service.sansCalls = f.services.map Service.sansCalls := by
  obtain ⟨_, _, _, rfl, _, rfl | ⟨probe, hprobe, rfl⟩⟩ := h.changes
  · rfl
  · obtain ⟨hplace, hs⟩ := List.getElem?_eq_some_iff.mp hs
    have hsame : Service.sansCalls { s with probe } = s.sansCalls := by
      simp only [Service.sansCalls, hprobe]
    simp only [List.map_set, hsame]
    rw [← hs]
    exact List.set_getElem_self hplace

theorem AskedInTurn.services {qs : List StatusQuestion} {g : Fleet}
    (h : AskedInTurn place s f qs g)
    (hs : (f.services.map Service.sansCalls)[place]? = some s.sansCalls) :
    g.services.map Service.sansCalls = f.services.map Service.sansCalls := by
  induction h with
  | none => rfl
  | next hfirst _ ih =>
    have hkept := hfirst.services hs
    rw [ih (by rw [hkept]; exact hs), hkept]

/-- Asking leaves the progress that was read in the log as it is. -/
theorem AskedInTurn.progress {qs : List StatusQuestion} {g : Fleet}
    (h : AskedInTurn place s f qs g) (s' : Service) : g.progress s' = f.progress s' := by
  obtain ⟨_, _, _, rfl, _⟩ := h.changes
  rfl

/-! ### What is asked of a fleet -/

/-- The mode is what the rules make of the question that is asked for it. -/
theorem exists_modeFound (f : Fleet) (place : Nat) (s : Service) :
    ∃ first, ModeFound f s first (.ofOption (f.mode s).1) ∧
      AskedInTurn place s f first (f.mode s).2 := by
  unfold Fleet.mode
  cases hprobe : s.descriptor.modeProbe with
  | none => exact ⟨[], .configured hprobe, .none f⟩
  | some probe =>
    have hread : (Fleet.getNamed? probe.peer s.peers).bind (fun place => f.services[place]?) =
      f.peer? s probe.peer := rfl
    simp only [hread]
    cases hpeer : f.peer? s probe.peer with
    | none => exact ⟨[], .undeclared hprobe hpeer, .none f⟩
    | some peer =>
      dsimp only
      refine ⟨[.environment peer.handle probe.env ((f.site peer.handle).getenv probe.env).1],
        .told hprobe hpeer ?_, .next (.environment f peer.handle probe.env) (.none _)⟩
      generalize ((f.site peer.handle).getenv probe.env).1 = answer
      match answer with
      | none => exact .unanswered
      | some (.error e) => exact .failed e
      | some (.ok none) => exact .unset
      | some (.ok (some value)) => exact modeTold_classifyMode _ probe value

theorem status_eq_observe (f : Fleet) (place : Nat) :
    (f.site place).status.1 =
      match (f.engine.inspect (f.handle place).name).1 with
      | .never => none
      | .answer r => some (((f.handle place).observe r).1.map Handle.stateOf) := by
  unfold Site.status Site.refresh Fleet.site
  cases f.engine.inspect (f.handle place).name with
  | mk reply engine => cases reply <;> rfl

/-- What the backend's answer comes to, once the container was seen running. -/
theorem exists_statusFound_running {g h : Fleet} {r : Except ContainerError Snapshot}
    (hlook : Asks place s g (.look (.answer r)) h) (hr : LookTold s.descriptor.disabled r none) :
    ∃ own, StatusFound s (g.progress s) (.now (.ok .native)) own
        ((h.ask place s).1.map (fun
          | .ok report => .ok report
          | .error e => Fleet.probeFault s.descriptor.name ((h.ask place s).2.progress s) e)) ∧
      AskedInTurn place s g own (h.ask place s).2 := by
  have hprobe : Asks place s h (.probe (h.ask place s).1) (h.ask place s).2 := .probe h
  have hprogress : (h.ask place s).2.progress s = g.progress s :=
    (AskedInTurn.next hlook (.next hprobe (.none _))).progress s
  by_cases hnone : s.probe = .none
  · have hready : h.ask place s = (.now (.ok .ready), h) := by
      unfold Fleet.ask
      rw [hnone]
    rw [hready]
    exact ⟨_, .unprobed hr hnone, .next hlook (.none _)⟩
  · rw [hprogress]
    generalize (h.ask place s).1 = answer at hprobe
    refine ⟨[.look (.answer r), .probe answer], ?_, .next hlook (.next hprobe (.none _))⟩
    cases answer with
    | never => exact .probeUnanswered hr hnone
    | after ms result =>
      cases result with
      | ok report => exact .probed hr hnone (.report report)
      | error e => exact .probed hr hnone (probeFound_probeFault _ _ e)

/-- What the questions asked of a native service come to. -/
theorem exists_statusFound_native {g : Fleet} (hmode : f.mode s = (some (.ok .native), g)) :
    ∃ own, StatusFound s (g.progress s) (.now (.ok .native)) own (f.status place s).1 ∧
      AskedInTurn place s g own (f.status place s).2 := by
  have hlook : Asks place s g _ _ := .look g
  have hstate := status_eq_observe g s.handle
  unfold Fleet.status
  simp only [hmode]
  generalize (g.engine.inspect (g.handle s.handle).name).1 = reply at hlook hstate
  cases reply with
  | never =>
    simp only [hstate]
    exact ⟨_, .lookUnanswered, .next hlook (.none _)⟩
  | answer r =>
    simp only [hstate]
    cases hr : ((g.handle s.handle).observe r).1.map Handle.stateOf with
    | error e =>
      exact ⟨_, .looked (lookTold_of_observe _ hr), .next hlook (.none _)⟩
    | ok state =>
      have hshows := shows_of_observe hr
      simp only
      by_cases hrunning : state = .running
      · subst hrunning
        exact exists_statusFound_running hlook (.running hshows)
      · have hreport : Fleet.containerReport s.descriptor state =
            some { text := containerStateText state s.descriptor.disabled true } := by
          cases state <;> first | rfl | contradiction
        simp only [hreport]
        exact ⟨_, .looked (.stopped hshows (stoppedText_containerStateText _ hrunning)),
          .next hlook (.none _)⟩

/-- What is asked of a service after its mode was asked for. -/
theorem exists_statusFound (f : Fleet) (place : Nat) (s : Service) :
    ∃ own, StatusFound s ((f.mode s).2.progress s) (.ofOption (f.mode s).1) own
        (f.status place s).1 ∧
      AskedInTurn place s (f.mode s).2 own (f.status place s).2 := by
  cases hmode : f.mode s with
  | mk mode g =>
    match mode with
    | some (.ok .native) => exact exists_statusFound_native hmode
    | none =>
      rw [Fleet.status, hmode]
      exact ⟨[], .modeUnanswered, .none g⟩
    | some (.error e) =>
      rw [Fleet.status, hmode]
      exact ⟨[], .modeFailed e, .none g⟩
    | some (.ok .external) =>
      rw [Fleet.status, hmode]
      exact ⟨[], .external, .none g⟩
    | some (.ok .light) =>
      rw [Fleet.status, hmode]
      exact ⟨[], .light, .none g⟩

/-- A status query asks questions in turn. -/
theorem exists_askedInTurn (f : Fleet) (place : Nat) (s : Service) :
    ∃ qs, AskedInTurn place s f qs (f.status place s).2 := by
  obtain ⟨first, _, hfirst⟩ := exists_modeFound f place s
  obtain ⟨own, _, hown⟩ := exists_statusFound f place s
  exact ⟨first ++ own, hfirst.append hown⟩

namespace Fleet

/-- A status query changes the engine, what the handles show, and how often a probe was called. -/
theorem status_changes (f : Fleet) (place : Nat) (s : Service) :
    ∃ engine handles services, (f.status place s).2 = { f with engine, handles, services } ∧
      handles.length = f.handles.length := by
  obtain ⟨_, hasked⟩ := exists_askedInTurn f place s
  exact hasked.changes

theorem services_status (h : f.services[place]? = some s) :
    (f.status place s).2.services.map Service.sansCalls = f.services.map Service.sansCalls := by
  obtain ⟨_, hasked⟩ := exists_askedInTurn f place s
  apply hasked.services
  rw [List.getElem?_map, h, Option.map_some]

end Fleet

/-! ### Every query is derived -/

/-- Whether a question is a call of the probe. -/
def StatusQuestion.isProbe : StatusQuestion → Bool
  | .probe _ => true
  | _ => false

/-- A status query of a service: the questions that are asked for the mode, those that are asked of
the service itself, the answer, and the fleet after it. -/
structure IsDerived (f : Fleet) (place : Nat) (s : Service) (first own : List StatusQuestion)
    (answer : Later (Except StatusError StatusReport)) (g : Fleet) : Prop where
  asked : AskedInTurn place s f (first ++ own) g
  /-- The answer is the one that the rules make of the questions. -/
  answer_iff : ∀ other, StatusOf f s first own other ↔ other = answer
  /-- The own container is inspected only if the mode is native. -/
  lookedNative : ∀ r, .look r ∈ first ++ own → ModeFound f s first (.now (.ok .native))
  probedOnce : (first ++ own).countP StatusQuestion.isProbe ≤ 1
  /-- The probe is called only after this query's own inspection showed a running container. -/
  probedRunning : ∀ r, .probe r ∈ first ++ own → ∃ seen : Snapshot,
    own = [.look (.answer (.ok seen)), .probe r] ∧ seen.state = .running
  /-- A container that is missing is no failure. -/
  missing : ∀ ms name, answer ≠ .after ms (.error (.container (.notFound name)))

theorem isDerived_of_found {first own : List StatusQuestion} {mode : Later (Except StatusError Mode)}
    {answer : Later (Except StatusError StatusReport)} {g : Fleet}
    (hmode : ModeFound f s first mode) (hstatus : StatusFound s (f.progress s) mode own answer)
    (hasked : AskedInTurn place s f (first ++ own) g) : IsDerived f place s first own answer g where
  asked := hasked
  answer_iff other := by
    constructor
    · rintro ⟨mode', hmode', hstatus'⟩
      cases hmode.unique hmode'
      exact hstatus'.unique hstatus
    · rintro rfl
      exact ⟨mode, hmode, hstatus⟩
  lookedNative r hr := by
    rcases List.mem_append.mp hr with hfirst | hown
    · obtain ⟨_, _, _, hq⟩ := hmode.environment_of_mem hfirst
      cases hq
    · rcases hstatus.own_cases with rfl | ⟨rfl, _⟩
      · cases hown
      · exact hmode
  probedOnce := by
    have hfirst : first.countP StatusQuestion.isProbe = 0 := by
      refine List.countP_eq_zero.mpr fun q hq => ?_
      obtain ⟨_, _, _, rfl⟩ := hmode.environment_of_mem hq
      exact Bool.false_ne_true
    rw [List.countP_append, hfirst, Nat.zero_add]
    rcases hstatus.own_cases with rfl | ⟨_, ⟨_, rfl⟩ | ⟨_, _, rfl, _⟩⟩
    · exact Nat.zero_le 1
    · exact Nat.zero_le 1
    · exact Nat.le_refl 1
  probedRunning r hr := by
    rcases List.mem_append.mp hr with hfirst | hown
    · obtain ⟨_, _, _, hq⟩ := hmode.environment_of_mem hfirst
      cases hq
    · rcases hstatus.own_cases with rfl | ⟨_, ⟨_, rfl⟩ | ⟨seen, r', rfl, hrunning⟩⟩
      · cases hown
      · cases List.mem_singleton.mp hown
      · rcases List.mem_pair.mp hown with hlook | hprobe
        · cases hlook
        · cases hprobe
          exact ⟨seen, rfl, hrunning⟩
  missing ms name := by
    rintro rfl
    refine hstatus.ne_notFound ?_
    rintro rfl
    exact hmode.ne_container

/-- The status of a service is derived from what was asked, whatever the answers. -/
theorem status_isDerived (f : Fleet) (place : Nat) (s : Service) :
    ∃ first own, IsDerived f place s first own (f.status place s).1 (f.status place s).2 := by
  obtain ⟨first, hmode, hfirst⟩ := exists_modeFound f place s
  obtain ⟨own, hstatus, hown⟩ := exists_statusFound f place s
  rw [hfirst.progress] at hstatus
  exact ⟨first, own, isDerived_of_found hmode hstatus (hfirst.append hown)⟩

end FleetWatch
