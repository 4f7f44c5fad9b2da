import FleetWatch.Config.Settings
import FleetWatch.Proofs.Flow.InTurn
import FleetWatch.Proofs.Text.Decimal
/-!
The layers that the settings of a run come from.

Each setting has a variable of its own.  Where it is present it decides, else the file does, and
where that says nothing the default of the network stands.  A present text that is no number of the
setting's range is a fault of that setting, and so is a zero where zero is refused, in whatever
layer it stands; no later layer is fallen back on.  Main statement: the settings are settled exactly
if none has a fault, each by its own layers, and the first fault in their order is the one reported
(`resolve_isLayered`).
-/

namespace FleetWatch

/-- The settings of a run, in the order in which they are settled. -/
inductive Setting where
  | rpcMaxAttempts
  | statusTimeout
  | rpcRetryDelay
  | rpcConnectTimeout
  | rpcCallTimeout
  | setupLog
  | setupHistory
deriving Repr, DecidableEq, Inhabited

/-- What a setting is set to. -/
inductive SettingValue where
  /-- No ceiling. -/
  | unlimited
  | number (n : Nat)
  | path (text : String)
deriving Repr, DecidableEq, Inhabited

namespace Setting

def all : List Setting :=
  [.rpcMaxAttempts, .statusTimeout, .rpcRetryDelay, .rpcConnectTimeout, .rpcCallTimeout, .setupLog,
    .setupHistory]

/-- The variable of a setting. -/
def variableName : Setting → String
  | .rpcMaxAttempts => "DOCKWATCH_RPC_MAX_ATTEMPTS"
  | .statusTimeout => "DOCKWATCH_STATUS_TIMEOUT_SECS"
  | .rpcRetryDelay => "DOCKWATCH_RPC_RETRY_DELAY_SECS"
  | .rpcConnectTimeout => "DOCKWATCH_RPC_CONNECT_TIMEOUT_SECS"
  | .rpcCallTimeout => "DOCKWATCH_RPC_CALL_TIMEOUT_SECS"
  | .setupLog => "DOCKWATCH_SETUP_LOG"
  | .setupHistory => "DOCKWATCH_SETUP_HISTORY"

/-- The largest number of a setting that is a number. -/
def largest? : Setting → Option Nat
  | .rpcMaxAttempts => some (2 ^ 32 - 1)
  | .statusTimeout | .rpcRetryDelay | .rpcConnectTimeout | .rpcCallTimeout | .setupHistory =>
    some (2 ^ 64 - 1)
  | .setupLog => none

/-- Why a setting may not be zero; nothing where it may. -/
def zeroReason? : Setting → Option String
  | .rpcMaxAttempts => some "must be positive; leave unset to retry forever"
  | .statusTimeout | .rpcRetryDelay | .rpcConnectTimeout | .rpcCallTimeout =>
    some "must be at least 1 second"
  | .setupLog | .setupHistory => none

/-- Times and ceilings may not be zero. -/
def RefusesZero (x : Setting) : Prop :=
  x.zeroReason? ≠ none

theorem mem_all (x : Setting) : x ∈ all := by
  cases x <;> decide

end Setting

/-- What a file sets a setting to, if anything. -/
def FileSettings.value? (file : FileSettings) : Setting → Option SettingValue
  | .rpcMaxAttempts => file.rpcMaxAttempts.map .number
  | .statusTimeout => file.statusTimeoutSecs.map .number
  | .rpcRetryDelay => file.rpcRetryDelaySecs.map .number
  | .rpcConnectTimeout => file.rpcConnectTimeoutSecs.map .number
  | .rpcCallTimeout => file.rpcCallTimeoutSecs.map .number
  | .setupLog => file.setupLog.map .path
  | .setupHistory => file.setupHistory.map .number

def Settings.value (s : Settings) : Setting → SettingValue
  | .rpcMaxAttempts => (s.rpcMaxAttempts.map .number).getD .unlimited
  | .statusTimeout => .number s.statusTimeout
  | .rpcRetryDelay => .number s.rpcRetryDelay
  | .rpcConnectTimeout => .number s.rpcConnectTimeout
  | .rpcCallTimeout => .number s.rpcCallTimeout
  | .setupLog => .path s.setupLog
  | .setupHistory => .number s.setupHistory

namespace Setting

/-- A variable's text stands for a value.  Blanks around a number are passed over. -/
inductive Reads : Setting → String → SettingValue → Prop
  | number {x : Setting} {largest : Nat} {raw : String} {n : Nat}
    (ranged : x.largest? = some largest) (written : Text.WritesNat (Text.trimChars raw.toList) n)
    (fits : n ≤ largest) : Reads x raw (.number n)
  | path {x : Setting} {raw : String} (unranged : x.largest? = none) : Reads x raw (.path raw)

variable (file : FileSettings) (network : String) (env : Environment)

/-- The first layer that says anything of a setting sets it to a value. -/
inductive Layered (x : Setting) : SettingValue → Prop
  | ofVariable {raw : String} {value : SettingValue}
    (present : env x.variableName = .ok (some raw)) (reads : x.Reads raw value) : Layered x value
  | ofFile {value : SettingValue} (absent : env x.variableName = .ok none)
    (written : file.value? x = some value) : Layered x value
  | ofDefault (absent : env x.variableName = .ok none) (unwritten : file.value? x = none) :
    Layered x ((Settings.defaults network).value x)

/-- What is wrong with a setting, and how it is reported. -/
inductive Fault (x : Setting) : ConfigError → Prop
  | lookup {e : ConfigError} (failed : env x.variableName = .error e) : Fault x e
  | unread {raw : String} (why : Text.IntegerFault) (present : env x.variableName = .ok (some raw))
    (unread : ∀ value, ¬ x.Reads raw value) :
    Fault x (.invalidValue x.variableName ("'" ++ raw ++ "': " ++ why.message))
  | zero {reason : String} (layered : Layered file network env x (.number 0))
    (refused : x.zeroReason? = some reason) : Fault x (.invalidValue x.variableName reason)

/-- What the text of a setting's variable is read as. -/
def read (x : Setting) (raw : String) : Except ConfigError SettingValue :=
  match x.largest? with
  | some largest => SettingValue.number <$> Settings.readVariable largest x.variableName raw
  | none => .ok (.path raw)

/-- The value that the layers of a setting give. -/
def found (x : Setting) : Except ConfigError SettingValue :=
  match env x.variableName with
  | .error e => .error e
  | .ok (some raw) => x.read raw
  | .ok none => .ok ((file.value? x).getD ((Settings.defaults network).value x))

/-- Refuses a zero where it may not stand. -/
def checked (x : Setting) (value : SettingValue) : Except ConfigError SettingValue :=
  match x.zeroReason? with
  | some reason =>
    if value = .number 0 then .error (.invalidValue x.variableName reason) else .ok value
  | none => .ok value

/-- A setting settled by itself. -/
def settle (x : Setting) : Except ConfigError SettingValue :=
  found file network env x >>= x.checked

end Setting

namespace Settings

variable {file : FileSettings} {network : String} {env : Environment}

section Numbers

variable {x : Setting} {written : Option Nat} {default : Nat}

theorem number_eq (hlargest : x.largest? = some Text.max64)
    (hfile : file.value? x = written.map .number)
    (hdefault : (defaults network).value x = .number default) :
    x.found file network env =
      SettingValue.number <$> number env x.variableName (written.getD default) := by
  simp only [number, Setting.found, Setting.read, hlargest, hfile, hdefault]
  rcases env x.variableName with e | _ | raw
  · rfl
  · cases written <;> rfl
  · rfl

theorem seconds_eq (hlargest : x.largest? = some Text.max64)
    (hreason : x.zeroReason? = some "must be at least 1 second")
    (hfile : file.value? x = written.map .number)
    (hdefault : (defaults network).value x = .number default) :
    x.settle file network env =
      SettingValue.number <$> seconds env x.variableName (written.getD default) := by
  rw [Setting.settle, number_eq hlargest hfile hdefault, seconds, bind_map_left, map_bind]
  congr 1
  funext n
  simp only [Setting.checked, hreason, SettingValue.number.injEq]
  by_cases hzero : n = 0
  · rw [if_pos hzero, if_pos hzero]
    rfl
  · rw [if_neg hzero, if_neg hzero]
    rfl

end Numbers

theorem attempts_eq :
    Setting.settle file network env .rpcMaxAttempts =
      (fun n => (n.map SettingValue.number).getD .unlimited) <$>
        attempts env file.rpcMaxAttempts := by
  have hlargest : (2 ^ 32 - 1 : Nat) = Text.max32 := rfl
  simp only [attempts, Setting.settle, Setting.found, Setting.read, Setting.variableName,
    Setting.largest?, hlargest]
  rcases env "DOCKWATCH_RPC_MAX_ATTEMPTS" with e | _ | raw
  · rfl
  · rcases hfile : file.rpcMaxAttempts with _ | _ | n
    all_goals simp only [FileSettings.value?, hfile]; rfl
  · change (_ <$> readVariable _ _ raw >>= _) = _ <$> (_ <$> readVariable _ _ raw >>= _)
    rcases readVariable Text.max32 "DOCKWATCH_RPC_MAX_ATTEMPTS" raw with e | _ | n <;> rfl

theorem setupLog_eq :
    Setting.settle file network env .setupLog =
      (fun present => SettingValue.path
        (Option.getD present (file.setupLog.getD (defaults network).setupLog))) <$>
          env "DOCKWATCH_SETUP_LOG" := by
  rw [Setting.settle, Setting.found, Setting.variableName]
  rcases env "DOCKWATCH_SETUP_LOG" with e | _ | raw
  · rfl
  · simp only [FileSettings.value?]
    cases file.setupLog <;> rfl
  · rfl

theorem setupHistory_eq :
    Setting.settle file network env .setupHistory =
      SettingValue.number <$> number env "DOCKWATCH_SETUP_HISTORY"
        (file.setupHistory.getD (defaults network).setupHistory) := by
  rw [Setting.settle, @number_eq file network env .setupHistory file.setupHistory _ rfl rfl rfl]
  exact bind_pure _

/-- The settings are settled one after the other, each by itself. -/
theorem resolve_eq :
    (fun s : Settings => Setting.all.map s.value) <$> resolve file network env =
      Setting.all.mapM (Setting.settle file network env) := by
  have hstatus := @seconds_eq file network env .statusTimeout file.statusTimeoutSecs 10
    rfl rfl rfl rfl
  have hdelay := @seconds_eq file network env .rpcRetryDelay file.rpcRetryDelaySecs 3
    rfl rfl rfl rfl
  have hconnect := @seconds_eq file network env .rpcConnectTimeout file.rpcConnectTimeoutSecs 3
    rfl rfl rfl rfl
  have hcall := @seconds_eq file network env .rpcCallTimeout file.rpcCallTimeoutSecs 3
    rfl rfl rfl rfl
  simp only [Setting.all, List.mapM_cons, List.mapM_nil, resolve, attempts_eq, hstatus, hdelay,
    hconnect, hcall, setupLog_eq, setupHistory_eq, Setting.variableName, bind_map_left, map_bind,
    map_pure, bind_assoc, pure_bind, List.map_cons, List.map_nil]
  rfl

theorem readVariable_eq_ok_iff {largest n : Nat} {key raw : String} :
    readVariable largest key raw = .ok n ↔
      Text.WritesNat (Text.trimChars raw.toList) n ∧ n ≤ largest := by
  rw [← Text.readNat_eq_ok_iff_writesNat, readVariable]
  cases Text.readNat largest (Text.trimChars raw.toList) <;> simp

theorem eq_of_readVariable_error {largest : Nat} {key raw : String} {e : ConfigError}
    (h : readVariable largest key raw = .error e) :
    ∃ why : Text.IntegerFault, e = .invalidValue key ("'" ++ raw ++ "': " ++ why.message) := by
  rw [readVariable] at h
  cases hread : Text.readNat largest (Text.trimChars raw.toList) with
  | ok n => simp [hread] at h
  | error why => exact ⟨why, by simpa [hread, eq_comm] using h⟩

end Settings

namespace Setting

variable {file : FileSettings} {network : String} {env : Environment} {x : Setting}
  {value : SettingValue} {e : ConfigError} {raw : String}

theorem read_eq_ok_iff : x.read raw = .ok value ↔ x.Reads raw value := by
  rw [read]
  cases hlargest : x.largest? with
  | none =>
    rw [Except.ok.injEq]
    constructor
    · rintro rfl
      exact .path hlargest
    · intro h
      cases h with
      | number ranged _ _ => cases hlargest.symm.trans ranged
      | path _ => rfl
  | some largest =>
    constructor
    · intro h
      obtain ⟨n, hn, rfl⟩ := map_eq_ok_iff.mp h
      obtain ⟨hwritten, hfits⟩ := Settings.readVariable_eq_ok_iff.mp hn
      exact .number hlargest hwritten hfits
    · intro h
      cases h with
      | number ranged written fits =>
        cases hlargest.symm.trans ranged
        exact map_eq_ok_iff.mpr ⟨_, Settings.readVariable_eq_ok_iff.mpr ⟨written, fits⟩, rfl⟩
      | path unranged => cases hlargest.symm.trans unranged

theorem eq_of_read_error (h : x.read raw = .error e) :
    ∃ why : Text.IntegerFault,
      e = .invalidValue x.variableName ("'" ++ raw ++ "': " ++ why.message) := by
  rw [read] at h
  split at h
  · exact Settings.eq_of_readVariable_error (map_eq_error_iff.mp h)
  · cases h

/-- The layers give one value at most. -/
theorem found_eq_ok_iff :
    found file network env x = .ok value ↔ Layered file network env x value := by
  rw [found]
  constructor
  · intro h
    split at h
    · cases h
    · next raw hvariable => exact .ofVariable hvariable (read_eq_ok_iff.mp h)
    · next hvariable =>
      cases hfile : file.value? x with
      | none =>
        rw [hfile] at h
        cases h
        exact .ofDefault hvariable hfile
      | some written =>
        rw [hfile] at h
        cases h
        exact .ofFile hvariable hfile
  · intro h
    cases h with
    | ofVariable present reads =>
      rw [present]
      exact read_eq_ok_iff.mpr reads
    | ofFile absent written =>
      rw [absent, written]
      rfl
    | ofDefault absent unwritten =>
      rw [absent, unwritten]
      rfl

theorem fault_of_found (h : found file network env x = .error e) : Fault file network env x e := by
  rw [found] at h
  split at h
  · next hvariable =>
    cases h
    exact .lookup hvariable
  · next raw hvariable =>
    obtain ⟨why, rfl⟩ := eq_of_read_error h
    refine .unread why hvariable fun value hvalue => ?_
    cases (read_eq_ok_iff.mpr hvalue).symm.trans h
  · cases h

theorem checked_eq_ok_iff {given : SettingValue} :
    x.checked given = .ok value ↔
      given = value ∧ (x.RefusesZero → value ≠ .number 0) := by
  rw [checked, RefusesZero]
  cases x.zeroReason? with
  | none => simp
  | some reason =>
    dsimp only
    by_cases hzero : given = .number 0
    · rw [if_pos hzero]
      simp only [reduceCtorEq, false_iff, not_and]
      rintro rfl h
      exact h (Option.some_ne_none reason) hzero
    · rw [if_neg hzero, Except.ok.injEq]
      constructor
      · rintro rfl
        exact ⟨rfl, fun _ => hzero⟩
      · exact And.left

theorem eq_of_checked_error {given : SettingValue} (h : x.checked given = .error e) :
    given = .number 0 ∧ ∃ reason, x.zeroReason? = some reason ∧
      e = .invalidValue x.variableName reason := by
  rw [checked] at h
  split at h
  · next reason hreason =>
    split at h
    · next hzero =>
      cases h
      exact ⟨hzero, reason, hreason, rfl⟩
    · cases h
  · cases h

/-- A setting is settled by its layers, unless they make it a zero that is refused. -/
theorem settle_eq_ok_iff :
    settle file network env x = .ok value ↔ Layered file network env x value ∧
      (x.RefusesZero → value ≠ .number 0) := by
  rw [settle, bind_eq_ok, ← found_eq_ok_iff]
  simp only [checked_eq_ok_iff]
  constructor
  · rintro ⟨given, hgiven, rfl, hzero⟩
    exact ⟨hgiven, hzero⟩
  · rintro ⟨hgiven, hzero⟩
    exact ⟨value, hgiven, rfl, hzero⟩

theorem fault_of_settle (h : settle file network env x = .error e) :
    Fault file network env x e := by
  rw [settle] at h
  cases hfound : found file network env x with
  | error e' =>
    rw [hfound] at h
    cases h
    exact fault_of_found hfound
  | ok given =>
    rw [hfound] at h
    obtain ⟨rfl, reason, hreason, rfl⟩ := eq_of_checked_error h
    exact .zero (found_eq_ok_iff.mp hfound) hreason

/-- A setting that is settled has no fault. -/
theorem not_fault_of_settle (h : settle file network env x = .ok value) :
    ¬ Fault file network env x e := by
  obtain ⟨hlayered, hzero⟩ := settle_eq_ok_iff.mp h
  intro hfault
  cases hfault with
  | lookup failed =>
    cases hlayered with
    | ofVariable present _ => cases failed.symm.trans present
    | ofFile absent _ => cases failed.symm.trans absent
    | ofDefault absent _ => cases failed.symm.trans absent
  | unread why present unread =>
    cases hlayered with
    | ofVariable present' reads =>
      cases present.symm.trans present'
      exact unread _ reads
    | ofFile absent _ => cases present.symm.trans absent
    | ofDefault absent _ => cases present.symm.trans absent
  | zero layered refused =>
    have hsame : value = .number 0 :=
      Except.ok.inj ((found_eq_ok_iff.mpr hlayered).symm.trans (found_eq_ok_iff.mpr layered))
    have hrefuses : x.RefusesZero := by
      rw [RefusesZero, refused]
      exact Option.some_ne_none _
    exact hzero hrefuses hsame

theorem not_fault_iff :
    (∀ e, ¬ Fault file network env x e) ↔
      (∃ looked, env x.variableName = .ok looked) ∧
      (∀ raw, env x.variableName = .ok (some raw) → ∃ value, x.Reads raw value) ∧
      (x.RefusesZero → ¬ Layered file network env x (.number 0)) := by
  constructor
  · intro h
    refine ⟨?_, ?_, ?_⟩
    · cases hlooked : env x.variableName with
      | ok looked => exact ⟨looked, rfl⟩
      | error e => exact absurd (.lookup hlooked) (h e)
    · intro raw hraw
      by_contra hunread
      exact h _ (.unread .empty hraw (not_exists.mp hunread))
    · intro hrefuses hzero
      obtain ⟨reason, hreason⟩ := Option.ne_none_iff_exists'.mp hrefuses
      exact h _ (.zero hzero hreason)
  · rintro ⟨⟨looked, hlooked⟩, hread, hzero⟩ e hfault
    cases hfault with
    | lookup failed => cases hlooked.symm.trans failed
    | unread why present unread =>
      obtain ⟨value, hvalue⟩ := hread _ present
      exact unread value hvalue
    | zero layered refused =>
      exact hzero (Option.ne_none_iff_exists'.mpr ⟨_, refused⟩) layered

/-- A fault of a setting whose variable could be looked up names the variable. -/
theorem Fault.names (h : Fault file network env x e)
    (present : env x.variableName = .ok (some raw)) :
    ∃ reason, e = .invalidValue x.variableName reason := by
  cases h with
  | lookup failed => cases present.symm.trans failed
  | unread _ _ _ => exact ⟨_, rfl⟩
  | zero _ _ => exact ⟨_, rfl⟩

end Setting

namespace Settings

variable {file : FileSettings} {network : String} {env : Environment} {e : ConfigError}
  {s s' : Settings}

/-- Settings are the values of the single settings. -/
theorem eq_of_value_eq (h : ∀ x, s.value x = s'.value x) : s = s' := by
  have hattempts := h .rpcMaxAttempts
  have hstatus := h .statusTimeout
  have hdelay := h .rpcRetryDelay
  have hconnect := h .rpcConnectTimeout
  have hcall := h .rpcCallTimeout
  have hlog := h .setupLog
  have hhistory := h .setupHistory
  obtain ⟨_, _, _, _, ceiling, _, _⟩ := s
  obtain ⟨_, _, _, _, ceiling', _, _⟩ := s'
  simp only [value, SettingValue.number.injEq, SettingValue.path.injEq] at *
  have hceiling : ceiling = ceiling' := by
    cases ceiling <;> cases ceiling' <;> simp_all
  simp_all

theorem resolve_eq_ok_iff :
    resolve file network env = .ok s ↔
      ∀ x, Setting.settle file network env x = .ok (s.value x) := by
  have hrow : Setting.all.mapM (Setting.settle file network env) = .ok (Setting.all.map s.value) ↔
      ∀ x, Setting.settle file network env x = .ok (s.value x) := by
    rw [mapM_eq_ok_iff, List.map_map, List.map_inj_left]
    exact ⟨fun h x => h x x.mem_all, fun h x _ => h x⟩
  rw [← hrow, ← resolve_eq, map_eq_ok_iff]
  constructor
  · intro h
    exact ⟨s, h, rfl⟩
  · rintro ⟨s', h, hvalues⟩
    rw [List.map_inj_left] at hvalues
    rwa [← eq_of_value_eq fun x => hvalues x x.mem_all]

theorem resolve_eq_error_iff :
    resolve file network env = .error e ↔ ∃ earlier x later, Setting.all = earlier ++ x :: later ∧
      (∀ y ∈ earlier, ∃ value, Setting.settle file network env y = .ok value) ∧
      Setting.settle file network env x = .error e := by
  rw [← map_eq_error_iff (g := fun s : Settings => Setting.all.map s.value), resolve_eq,
    mapM_eq_error_iff]

end Settings

/-- The settings of a run are the ones that their layers make. -/
structure IsLayered (file : FileSettings) (network : String) (env : Environment)
    (outcome : Except ConfigError Settings) : Prop where
  ok_iff : ∀ s, outcome = .ok s ↔
    ∀ x : Setting, Setting.Layered file network env x (s.value x) ∧
      (x.RefusesZero → s.value x ≠ .number 0)
  exists_ok_iff : (∃ s, outcome = .ok s) ↔
    (∀ x : Setting, ∃ looked, env x.variableName = .ok looked) ∧
    (∀ (x : Setting) (raw : String), env x.variableName = .ok (some raw) →
      ∃ value, x.Reads raw value) ∧
    ∀ x : Setting, x.RefusesZero → ¬ Setting.Layered file network env x (.number 0)
  /-- The first fault is the one reported. -/
  error_of : ∀ e, outcome = .error e → ∃ (earlier later : List Setting) (x : Setting),
    Setting.all = earlier ++ x :: later ∧
      (∀ y ∈ earlier, ∀ e', ¬ Setting.Fault file network env y e') ∧
      Setting.Fault file network env x e
  /-- A text that stands for nothing is reported by its variable, unless an earlier setting has a
  fault of its own. -/
  error_of_unread : ∀ (x : Setting) (raw : String), env x.variableName = .ok (some raw) →
    (∀ value, ¬ x.Reads raw value) → ∃ e, outcome = .error e ∧
      ((∃ reason, e = .invalidValue x.variableName reason) ∨
        ∃ (earlier between later : List Setting) (y : Setting),
          Setting.all = earlier ++ y :: between ++ x :: later ∧
            Setting.Fault file network env y e)

namespace Settings

variable {file : FileSettings} {network : String} {env : Environment} {e : ConfigError}

theorem exists_resolve_iff :
    (∃ s, resolve file network env = .ok s) ↔ ∀ x e, ¬ Setting.Fault file network env x e := by
  constructor
  · rintro ⟨s, hs⟩ x e
    exact Setting.not_fault_of_settle (resolve_eq_ok_iff.mp hs x)
  · intro h
    cases houtcome : resolve file network env with
    | ok s => exact ⟨s, rfl⟩
    | error e =>
      obtain ⟨_, x, _, _, _, hx⟩ := resolve_eq_error_iff.mp houtcome
      exact absurd (Setting.fault_of_settle hx) (h x e)

theorem firstFault_of_resolve (h : resolve file network env = .error e) :
    ∃ (earlier later : List Setting) (x : Setting), Setting.all = earlier ++ x :: later ∧
      (∀ y ∈ earlier, ∀ e', ¬ Setting.Fault file network env y e') ∧
      Setting.Fault file network env x e := by
  obtain ⟨earlier, x, later, hall, hearlier, hx⟩ := resolve_eq_error_iff.mp h
  refine ⟨earlier, later, x, hall, fun y hy e' => ?_, Setting.fault_of_settle hx⟩
  obtain ⟨value, hvalue⟩ := hearlier y hy
  exact Setting.not_fault_of_settle hvalue

/-- Whatever file, network and environment are given, each setting comes from its own layers. -/
theorem resolve_isLayered (file : FileSettings) (network : String) (env : Environment) :
    IsLayered file network env (resolve file network env) where
  ok_iff s := by
    rw [resolve_eq_ok_iff]
    exact forall_congr' fun x => Setting.settle_eq_ok_iff
  exists_ok_iff := by
    rw [exists_resolve_iff]
    simp only [Setting.not_fault_iff, forall_and]
  error_of _ h := firstFault_of_resolve h
  error_of_unread x raw hraw hunread := by
    have hfault : Setting.Fault file network env x
        (.invalidValue x.variableName ("'" ++ raw ++ "': " ++ Text.IntegerFault.empty.message)) :=
      .unread .empty hraw hunread
    cases houtcome : resolve file network env with
    | ok s => exact absurd hfault (exists_resolve_iff.mp ⟨s, houtcome⟩ x _)
    | error e =>
      refine ⟨e, rfl, ?_⟩
      obtain ⟨earlier, later, y, hall, hearlier, hy⟩ := firstFault_of_resolve houtcome
      have hx : x ∈ earlier ++ y :: later := hall ▸ x.mem_all
      rcases List.mem_append.mp hx with hx | hx
      · exact absurd hfault (hearlier x hx _)
      · rcases List.mem_cons.mp hx with rfl | hx
        · exact Or.inl (hy.names hraw)
        · obtain ⟨between, later, rfl⟩ := List.append_of_mem hx
          exact Or.inr ⟨earlier, between, later, y, by rw [hall]; simp, hy⟩

/-- A zero of the file is passed over where a variable stands above it. -/
example :
    resolve { statusTimeoutSecs := some 0, setupHistory := some 0 } "testnet" (fun key =>
        .ok (if key = "DOCKWATCH_STATUS_TIMEOUT_SECS" then some " +12 " else none)) =
      .ok { defaults "testnet" with statusTimeout := 12, setupHistory := 0 } := by
  decide +kernel

end Settings

end FleetWatch
