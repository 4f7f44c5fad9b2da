import FleetWatch.Fleet.Status
import Mathlib.Data.List.Infix
/-!
The rules for a service's status.

A status query asks at most three questions: a peer's environment for the mode, the engine for the
service's own container, and the backend.  `ModeFound` and `StatusFound` say what the answers come to,
with one rule a case; the rules leave no choice.
-/

namespace FleetWatch

/-! ### Marks in error texts -/

/-- The text of a table entry stands somewhere in a message. -/
def IsMarked (message : String) (entry : String × BackendCondition) : Prop :=
  entry.1.toList <:+: message.toList

/-- The first table entry whose text stands in a message tells of a condition. -/
def TellsOf (message : String) (condition : BackendCondition) : Prop :=
  ∃ earlier mark later, transientErrors = earlier ++ (mark, condition) :: later ∧
    IsMarked message (mark, condition) ∧ ∀ entry ∈ earlier, ¬ IsMarked message entry

/-- No table entry's text stands in a message. -/
def IsUnmarked (message : String) : Prop :=
  ∀ entry ∈ transientErrors, ¬ IsMarked message entry

theorem contains_iff_isMarked {message : String} {entry : String × BackendCondition} :
    Text.contains message entry.1 = true ↔ IsMarked message entry :=
  Text.contains_iff_infix

theorem classifyError_eq_some_iff {message : String} {condition : BackendCondition} :
    classifyError message = some condition ↔ TellsOf message condition := by
  unfold classifyError TellsOf
  simp only [Option.map_eq_some_iff, List.find?_eq_some_iff_append, Bool.not_eq_true',
    ← Bool.not_eq_true, contains_iff_isMarked]
  constructor
  · rintro ⟨⟨mark, _⟩, ⟨hmark, earlier, later, htable, hearlier⟩, rfl⟩
    exact ⟨earlier, mark, later, htable, hmark, hearlier⟩
  · rintro ⟨earlier, mark, later, htable, hmark, hearlier⟩
    exact ⟨(mark, condition), ⟨hmark, earlier, later, htable, hearlier⟩, rfl⟩

theorem classifyError_eq_none_iff {message : String} :
    classifyError message = none ↔ IsUnmarked message := by
  unfold classifyError IsUnmarked
  simp only [Option.map_eq_none_iff, List.find?_eq_none, contains_iff_isMarked]

/-! ### What the answers come to -/

/-- A question of a status query with its answer.  An answer of `none` or `never` never comes. -/
inductive StatusQuestion where
  /-- A variable of the environment of the peer with a handle. -/
  | environment (peer : Nat) (key : String)
      (answer : Option (Except ContainerError (Option String)))
  /-- An inspection of the service's own container. -/
  | look (answer : Reply Snapshot)
  /-- A call of the service's own probe. -/
  | probe (answer : Later (Except RpcError StatusReport))

/-- The peer that a service sees under a name. -/
def Fleet.peer? (f : Fleet) (s : Service) (name : String) : Option Service :=
  (Fleet.getNamed? name s.peers).bind fun place => f.services[place]?

/-- What the answer for the variable of a mode probe tells of the mode. -/
inductive ModeTold (service : String) (probe : ModeProbe) :
    Option (Except ContainerError (Option String)) → Later (Except StatusError Mode) → Prop
  | unanswered : ModeTold service probe none .never
  | failed (e : ContainerError) : ModeTold service probe (some (.error e))
      (.now (.error (.dependency service probe.peer e.message)))
  | unset : ModeTold service probe (some (.ok none))
      (.now (.error (.dependency service probe.peer (probe.env ++ " is not set"))))
  | native {value} (h : Text.trim value = probe.nativeHost) :
    ModeTold service probe (some (.ok (some value))) (.now (.ok .native))
  | light {value} (h : Text.trim value ≠ probe.nativeHost)
      (hlight : Text.trim value ∈ probe.lightEndpoints) :
    ModeTold service probe (some (.ok (some value))) (.now (.ok .light))
  | external {value} (h : Text.trim value ≠ probe.nativeHost)
      (hlight : Text.trim value ∉ probe.lightEndpoints) :
    ModeTold service probe (some (.ok (some value))) (.now (.ok .external))

/-- The mode of a service: the configured one, or what a peer tells. -/
inductive ModeFound (f : Fleet) (s : Service) :
    List StatusQuestion → Later (Except StatusError Mode) → Prop
  | configured (h : s.descriptor.modeProbe = none) :
    ModeFound f s [] (.now (.ok s.descriptor.mode))
  | undeclared {probe} (h : s.descriptor.modeProbe = some probe)
      (hpeer : f.peer? s probe.peer = none) :
    ModeFound f s []
      (.now (.error (.dependency s.descriptor.name probe.peer "not a declared dependency")))
  | told {probe peer answer mode} (h : s.descriptor.modeProbe = some probe)
      (hpeer : f.peer? s probe.peer = some peer)
      (hmode : ModeTold s.descriptor.name probe answer mode) :
    ModeFound f s [.environment peer.handle probe.env answer] mode

/-- The state that an inspection shows.  A container that is not found is missing. -/
inductive Shows : Except ContainerError Snapshot → LifecycleState → Prop
  | seen (snapshot : Snapshot) : Shows (.ok snapshot) snapshot.state
  | notFound (name : String) : Shows (.error (.notFound name)) .missing

/-- The text of a service whose container is in a state other than running. -/
inductive StoppedText (isDisabled : Bool) : LifecycleState → String → Prop
  | disabled (h : isDisabled = true) : StoppedText isDisabled .missing "Disabled"
  | missing (h : isDisabled = false) : StoppedText isDisabled .missing "Container missing"
  | stopped {state} (hmissing : state ≠ .missing) (hrunning : state ≠ .running) :
    StoppedText isDisabled state ("Container " ++ state.name)

/-- What an inspection tells of the status; `none` while the container runs. -/
inductive LookTold (isDisabled : Bool) :
    Except ContainerError Snapshot → Option (Except StatusError StatusReport) → Prop
  | failed {e} (h : e.isNotFound = false) :
    LookTold isDisabled (.error e) (some (.error (.container e)))
  | stopped {r state text} (hstate : Shows r state) (htext : StoppedText isDisabled state text) :
    LookTold isDisabled r (some (.ok { text }))
  | running {r} (hstate : Shows r .running) : LookTold isDisabled r none

/-- What a probe's answer comes to. -/
inductive ProbeFound (name : String) (progress : Option SyncProgress) :
    Except RpcError StatusReport → Except StatusError StatusReport → Prop
  | report (r : StatusReport) : ProbeFound name progress (.ok r) (.ok r)
  | known {e condition} (h : TellsOf e.message condition) :
    ProbeFound name progress (.error e) (.ok { text := condition.text })
  | progressing {e p} (h : IsUnmarked e.message) (he : e.isUnreachable = true)
      (hp : progress = some p) (hmoved : p.hasProgress = true) :
    ProbeFound name progress (.error e) (.ok { text := p.text })
  | waiting {e} (h : IsUnmarked e.message) (he : e.isUnreachable = true)
      (hp : ∀ p, progress = some p → p.hasProgress = false) :
    ProbeFound name progress (.error e)
      (.ok { text := "Waiting for " ++ name ++ " to come up..." })
  | failed {e} (h : IsUnmarked e.message) (he : e.isUnreachable = false) :
    ProbeFound name progress (.error e) (.error (.rpc e))

/-- What a mode, and the questions that are asked of the service itself, come to. -/
inductive StatusFound (s : Service) (progress : Option SyncProgress) :
    Later (Except StatusError Mode) → List StatusQuestion →
      Later (Except StatusError StatusReport) → Prop
  | modeUnanswered : StatusFound s progress .never [] .never
  | modeFailed (e : StatusError) :
    StatusFound s progress (.now (.error e)) [] (.now (.error e))
  | external : StatusFound s progress (.now (.ok .external)) []
      (.now (.ok { text := "Ready (connected to external)" }))
  | light : StatusFound s progress (.now (.ok .light)) []
      (.now (.ok { text := "Ready (light mode)" }))
  | lookUnanswered : StatusFound s progress (.now (.ok .native)) [.look .never] .never
  | looked {r result} (h : LookTold s.descriptor.disabled r (some result)) :
    StatusFound s progress (.now (.ok .native)) [.look (.answer r)] (.now result)
  | unprobed {r} (h : LookTold s.descriptor.disabled r none) (hprobe : s.probe = .none) :
    StatusFound s progress (.now (.ok .native)) [.look (.answer r)] (.now (.ok { text := "Ready" }))
  | probed {r ms answer result} (h : LookTold s.descriptor.disabled r none)
      (hprobe : s.probe ≠ .none)
      (hresult : ProbeFound s.descriptor.name progress answer result) :
    StatusFound s progress (.now (.ok .native))
      [.look (.answer r), .probe (.after ms answer)] (.after ms result)
  | probeUnanswered {r} (h : LookTold s.descriptor.disabled r none) (hprobe : s.probe ≠ .none) :
    StatusFound s progress (.now (.ok .native)) [.look (.answer r), .probe .never] .never

/-- The status that the rules make of the questions for the mode and of those asked of the service
itself. -/
def StatusOf (f : Fleet) (s : Service) (first own : List StatusQuestion)
    (answer : Later (Except StatusError StatusReport)) : Prop :=
  ∃ mode, ModeFound f s first mode ∧ StatusFound s (f.progress s) mode own answer

/-! ### The rules leave no choice -/

theorem ModeTold.unique {service : String} {probe : ModeProbe}
    {answer : Option (Except ContainerError (Option String))}
    {mode mode' : Later (Except StatusError Mode)} (h : ModeTold service probe answer mode)
    (h' : ModeTold service probe answer mode') : mode = mode' := by
  cases h <;> cases h' <;> first | rfl | contradiction

theorem ModeFound.unique {f : Fleet} {s : Service} {first : List StatusQuestion}
    {mode mode' : Later (Except StatusError Mode)} (h : ModeFound f s first mode)
    (h' : ModeFound f s first mode') : mode = mode' := by
  generalize hsame : first = first' at h'
  cases h with
  | configured h => cases h' <;> simp_all
  | undeclared h hpeer => cases h' <;> simp_all
  | told h hpeer hmode =>
    cases h' with
    | configured | undeclared => cases hsame
    | told h' hpeer' hmode' =>
      cases h.symm.trans h'
      simp only [List.cons.injEq, StatusQuestion.environment.injEq] at hsame
      obtain ⟨⟨-, -, rfl⟩, -⟩ := hsame
      exact hmode.unique hmode'

theorem Shows.unique {r : Except ContainerError Snapshot} {state state' : LifecycleState}
    (h : Shows r state) (h' : Shows r state') : state = state' := by
  cases h <;> cases h' <;> rfl

theorem Shows.isNotFound {e : ContainerError} {state : LifecycleState}
    (h : Shows (.error e) state) : e.isNotFound = true := by
  cases h
  rfl

theorem StoppedText.not_running {isDisabled : Bool} {state : LifecycleState} {text : String}
    (h : StoppedText isDisabled state text) : state ≠ .running := by
  cases h with
  | disabled | missing => exact LifecycleState.noConfusion
  | stopped _ hrunning => exact hrunning

theorem StoppedText.unique {isDisabled : Bool} {state : LifecycleState} {text text' : String}
    (h : StoppedText isDisabled state text) (h' : StoppedText isDisabled state text') :
    text = text' := by
  cases h <;> cases h' <;> simp_all

theorem LookTold.unique {isDisabled : Bool} {r : Except ContainerError Snapshot}
    {result result' : Option (Except StatusError StatusReport)} (h : LookTold isDisabled r result)
    (h' : LookTold isDisabled r result') : result = result' := by
  cases h with
  | failed he =>
    cases h' with
    | failed => rfl
    | stopped hstate' | running hstate' =>
      exact absurd hstate'.isNotFound (Bool.eq_false_iff.mp he)
  | stopped hstate htext =>
    cases h' with
    | failed he' => exact absurd hstate.isNotFound (Bool.eq_false_iff.mp he')
    | stopped hstate' htext' =>
      cases hstate.unique hstate'
      rw [htext.unique htext']
    | running hstate' => exact absurd (hstate.unique hstate') htext.not_running
  | running hstate =>
    cases h' with
    | failed he' => exact absurd hstate.isNotFound (Bool.eq_false_iff.mp he')
    | stopped hstate' htext' => exact absurd (hstate'.unique hstate) htext'.not_running
    | running => rfl

/-- A message tells of one condition at most. -/
theorem TellsOf.unique {message : String} {condition condition' : BackendCondition}
    (h : TellsOf message condition) (h' : TellsOf message condition') : condition = condition' := by
  rw [← classifyError_eq_some_iff] at h h'
  exact Option.some.inj (h.symm.trans h')

theorem TellsOf.not_isUnmarked {message : String} {condition : BackendCondition}
    (h : TellsOf message condition) : ¬ IsUnmarked message := by
  rw [← classifyError_eq_some_iff] at h
  rw [← classifyError_eq_none_iff, h]
  exact Option.some_ne_none condition

theorem ProbeFound.unique {name : String} {progress : Option SyncProgress}
    {answer : Except RpcError StatusReport} {result result' : Except StatusError StatusReport}
    (h : ProbeFound name progress answer result) (h' : ProbeFound name progress answer result') :
    result = result' := by
  cases h with
  | report =>
    cases h'
    rfl
  | known hknown =>
    cases h' with
    | known hknown' => rw [hknown.unique hknown']
    | progressing hunmarked | waiting hunmarked | failed hunmarked =>
      exact absurd hunmarked hknown.not_isUnmarked
  | progressing hunmarked he hp hmoved =>
    cases h' with
    | known hknown => exact absurd hunmarked hknown.not_isUnmarked
    | progressing _ _ hp' =>
      cases hp.symm.trans hp'
      rfl
    | waiting _ _ hp' => exact absurd hmoved (Bool.eq_false_iff.mp (hp' _ hp))
    | failed _ he' => exact absurd he (Bool.eq_false_iff.mp he')
  | waiting hunmarked he hp =>
    cases h' with
    | known hknown => exact absurd hunmarked hknown.not_isUnmarked
    | progressing _ _ hp' hmoved => exact absurd hmoved (Bool.eq_false_iff.mp (hp _ hp'))
    | waiting => rfl
    | failed _ he' => exact absurd he (Bool.eq_false_iff.mp he')
  | failed hunmarked he =>
    cases h' with
    | known hknown => exact absurd hunmarked hknown.not_isUnmarked
    | progressing _ he' | waiting _ he' => exact absurd he' (Bool.eq_false_iff.mp he)
    | failed => rfl

theorem StatusFound.unique {s : Service} {progress : Option SyncProgress}
    {mode : Later (Except StatusError Mode)} {own : List StatusQuestion}
    {answer answer' : Later (Except StatusError StatusReport)}
    (h : StatusFound s progress mode own answer) (h' : StatusFound s progress mode own answer') :
    answer = answer' := by
  cases h with
  | modeUnanswered | modeFailed | external | light | lookUnanswered | probeUnanswered =>
    cases h'
    rfl
  | looked hlook =>
    cases h' with
    | looked hlook' => rw [Option.some.inj (hlook.unique hlook')]
    | unprobed hlook' => cases hlook.unique hlook'
  | unprobed hlook hprobe =>
    cases h' with
    | looked hlook' => cases hlook.unique hlook'
    | unprobed => rfl
  | probed hlook hprobe hresult =>
    cases h' with
    | probed _ _ hresult' => rw [hresult.unique hresult']

/-! ### The rules fit what is computed -/

theorem modeTold_classifyMode (service : String) (probe : ModeProbe) (value : String) :
    ModeTold service probe (some (.ok (some value)))
      (.now (.ok (classifyMode value probe.nativeHost probe.lightEndpoints))) := by
  unfold classifyMode
  by_cases hnative : Text.trim value = probe.nativeHost
  · simp only [hnative, if_true]
    exact .native hnative
  · by_cases hlight : Text.trim value ∈ probe.lightEndpoints
    · simp only [hnative, if_false, List.contains_iff_mem, hlight, if_true]
      exact .light hnative hlight
    · simp only [hnative, if_false, List.contains_iff_mem, hlight]
      exact .external hnative hlight

/-- The text of a container that does not run. -/
theorem stoppedText_containerStateText (isDisabled : Bool) {state : LifecycleState}
    (h : state ≠ .running) : StoppedText isDisabled state (containerStateText state isDisabled true) := by
  by_cases hmissing : state = .missing
  · subst hmissing
    cases isDisabled
    · exact .missing rfl
    · exact .disabled rfl
  · have htext : containerStateText state isDisabled true = "Container " ++ state.name := by
      cases state <;> first | rfl | contradiction
    rw [htext]
    exact .stopped hmissing h

theorem probeFound_probeFault (name : String) (progress : Option SyncProgress) (e : RpcError) :
    ProbeFound name progress (.error e) (Fleet.probeFault name progress e) := by
  unfold Fleet.probeFault
  cases hclass : classifyError e.message with
  | some condition => exact .known (classifyError_eq_some_iff.mp hclass)
  | none =>
    have hunmarked := classifyError_eq_none_iff.mp hclass
    by_cases he : e.isUnreachable = true
    · simp only [he, if_true]
      cases progress with
      | none => exact .waiting hunmarked he (by simp)
      | some p =>
        by_cases hmoved : p.hasProgress = true
        · simp only [hmoved, if_true]
          exact .progressing hunmarked he rfl hmoved
        · simp only [hmoved]
          exact .waiting hunmarked he (by simpa using hmoved)
    · simp only [he]
      exact .failed hunmarked (Bool.eq_false_iff.mpr he)

theorem shows_of_observe {h : Handle} {r : Except ContainerError Snapshot} {state : LifecycleState}
    (hr : (h.observe r).1.map Handle.stateOf = .ok state) : Shows r state := by
  cases r with
  | ok snapshot =>
    cases hr
    exact .seen snapshot
  | error e =>
    cases e with
    | notFound name =>
      cases hr
      exact .notFound name
    | notAvailable | engine | execFailed | cancelled => cases hr

theorem lookTold_of_observe (isDisabled : Bool) {h : Handle} {r : Except ContainerError Snapshot}
    {e : ContainerError} (hr : (h.observe r).1.map Handle.stateOf = .error e) :
    LookTold isDisabled r (some (.error (.container e))) := by
  cases r with
  | ok => cases hr
  | error e' =>
    cases e' with
    | notFound => cases hr
    | notAvailable | engine | execFailed | cancelled =>
      cases hr
      exact .failed rfl

/-! ### What may be asked -/

section Questions

variable {f : Fleet} {s : Service}

theorem LookTold.exists_running {isDisabled : Bool} {r : Except ContainerError Snapshot}
    (h : LookTold isDisabled r none) : ∃ seen, r = .ok seen ∧ seen.state = .running := by
  cases h with
  | running hstate =>
    generalize hrunning : LifecycleState.running = state at hstate
    cases hstate with
    | seen snapshot => exact ⟨snapshot, rfl, rfl⟩
    | notFound => cases hrunning

/-- Only a peer's environment is asked for the mode. -/
theorem ModeFound.environment_of_mem {first : List StatusQuestion}
    {mode : Later (Except StatusError Mode)} (h : ModeFound f s first mode) {q : StatusQuestion}
    (hq : q ∈ first) : ∃ peer key answer, q = .environment peer key answer := by
  cases h with
  | configured | undeclared => cases hq
  | told => exact ⟨_, _, _, List.mem_singleton.mp hq⟩

/-- What may be asked of a service itself. -/
theorem StatusFound.own_cases {progress : Option SyncProgress}
    {mode : Later (Except StatusError Mode)} {own : List StatusQuestion}
    {answer : Later (Except StatusError StatusReport)}
    (h : StatusFound s progress mode own answer) :
    own = [] ∨ mode = .now (.ok .native) ∧ ((∃ r, own = [.look r]) ∨ ∃ (seen : Snapshot) (r : _),
      own = [.look (.answer (.ok seen)), .probe r] ∧ seen.state = .running) := by
  cases h with
  | modeUnanswered | modeFailed | external | light => exact .inl rfl
  | lookUnanswered | looked | unprobed => exact .inr ⟨rfl, .inl ⟨_, rfl⟩⟩
  | probed hlook | probeUnanswered hlook =>
    obtain ⟨seen, rfl, hrunning⟩ := hlook.exists_running
    exact .inr ⟨rfl, .inr ⟨seen, _, rfl, hrunning⟩⟩

theorem ModeFound.ne_container {first : List StatusQuestion} {e : ContainerError}
    (h : ModeFound f s first (.now (.error (.container e)))) : False := by
  cases h with
  | told _ _ hmode => cases hmode

theorem StatusFound.ne_notFound {progress : Option SyncProgress}
    {mode : Later (Except StatusError Mode)} {own : List StatusQuestion} {ms : Nat} {name : String}
    (h : StatusFound s progress mode own (.after ms (.error (.container (.notFound name)))))
    (hmode : mode ≠ .now (.error (.container (.notFound name)))) : False := by
  cases h with
  | modeFailed => exact hmode rfl
  | looked hlook =>
    cases hlook with
    | failed he => cases he
  | probed _ _ hresult => cases hresult

end Questions

end FleetWatch
