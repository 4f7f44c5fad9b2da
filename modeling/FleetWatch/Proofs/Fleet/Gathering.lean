import FleetWatch.Fleet.Status
import Mathlib.Data.List.Forall2
/-!
Statuses that are waited for side by side.

Every service of a table is asked by a task of its own, which waits for the answer as long as a status
may take.  Tasks go on one at a time, in any order, as soon as they can; time passes while none can.
Main statement: whatever the order, and whatever the answers, the tasks come to an end in time, and the
row of each tells of its own answer alone.
-/

namespace FleetWatch

/-- The row that tells of the outcome of a service's status, for somebody who waits a given time. -/
inductive Tells (timeout : Nat) (service : String) :
    Later (Except StatusError StatusReport) → StatusRow → Prop
  | report {ms report} (h : ms ≤ timeout) :
    Tells timeout service (.after ms (.ok report))
      { service, status := report.text, detail := report.detail }
  | failure {ms e} (h : ms ≤ timeout) :
    Tells timeout service (.after ms (.error e))
      { service, status := "Error: " ++ e.message, detail := none }
  | late {ms result} (h : timeout < ms) :
    Tells timeout service (.after ms result)
      { service, detail := none
        status := "Error: " ++ (StatusError.timeout service timeout).message }
  | unanswered :
    Tells timeout service .never
      { service, detail := none
        status := "Error: " ++ (StatusError.timeout service timeout).message }

variable {timeout : Nat} {service : String} {answer : Later (Except StatusError StatusReport)}
  {row : StatusRow}

/-- The row of an answer that is waited for as long as a status may take. -/
def rowOf (timeout : Nat) (service : String) (answer : Later (Except StatusError StatusReport)) :
    StatusRow :=
  .ofResult service (Fleet.bounded timeout service answer)

theorem bounded_of_le {ms : Nat} {result : Except StatusError StatusReport} (h : ms ≤ timeout) :
    Fleet.bounded timeout service (.after ms result) = result := by
  rw [Fleet.bounded, Later.within, if_pos h, Option.getD_some]

theorem bounded_of_lt {ms : Nat} {result : Except StatusError StatusReport} (h : timeout < ms) :
    Fleet.bounded timeout service (.after ms result) = .error (.timeout service timeout) := by
  rw [Fleet.bounded, Later.within, if_neg (Nat.not_le_of_gt h), Option.getD_none]

theorem tells_iff : Tells timeout service answer row ↔ row = rowOf timeout service answer := by
  constructor
  · intro h
    cases h with
    | report h | failure h =>
      rw [rowOf, bounded_of_le h]
      rfl
    | late h =>
      rw [rowOf, bounded_of_lt h]
      rfl
    | unanswered => rfl
  · rintro rfl
    unfold rowOf
    cases answer with
    | never => exact .unanswered
    | after ms result =>
      by_cases h : ms ≤ timeout
      · rw [bounded_of_le h]
        cases result with
        | ok => exact .report h
        | error => exact .failure h
      · rw [bounded_of_lt (Nat.lt_of_not_le h)]
        exact .late (Nat.lt_of_not_le h)

/-- What is not there by a time was not there before. -/
theorem within_eq_none_of_le {elapsed : Nat} (h : timeout ≤ elapsed)
    (hnone : answer.within elapsed = none) : answer.within timeout = none := by
  cases answer with
  | never => rfl
  | after ms result =>
    simp only [Later.within, ite_eq_right_iff, reduceCtorEq, imp_false] at hnone ⊢
    omega

theorem Later.wait_le {α : Type} (answer : Later α) : answer.wait timeout ≤ timeout := by
  cases answer with
  | never => exact Nat.le_refl timeout
  | after ms result => exact Nat.min_le_right ms timeout

/-! ### Tasks that wait -/

/-- A task that waits for a service's status, or has its row. -/
inductive StatusTask where
  | asking (service : String) (answer : Later (Except StatusError StatusReport))
  | done (row : StatusRow)

namespace StatusTask

def isAsking : StatusTask → Bool
  | .asking _ _ => true
  | .done _ => false

/-- The row that a task has, or comes to. -/
def comesTo (timeout : Nat) : StatusTask → StatusRow
  | .asking service answer => rowOf timeout service answer
  | .done row => row

/-- A task can go on: its answer is there, or it has waited long enough. -/
def IsDue (timeout elapsed : Nat) : StatusTask → Prop
  | .asking _ answer => answer.wait timeout ≤ elapsed
  | .done _ => False

end StatusTask

/-- Tasks that were started together, and the time since. -/
structure Gathering where
  elapsed : Nat
  tasks : List StatusTask

namespace Gathering

/-- One task goes on, or time passes. -/
inductive Step (timeout : Nat) : Gathering → Gathering → Prop
  | answered {g i service ms result} (htask : g.tasks[i]? = some (.asking service (.after ms result)))
      (hthere : ms ≤ g.elapsed) :
    Step timeout g { g with tasks := g.tasks.set i (.done (.ofResult service result)) }
  | gaveUp {g i service answer} (htask : g.tasks[i]? = some (.asking service answer))
      (hnone : answer.within g.elapsed = none) (hwaited : timeout ≤ g.elapsed) :
    Step timeout g { g with
      tasks := g.tasks.set i (.done (.ofResult service (.error (.timeout service timeout)))) }
  | passed {g} (hopen : ∃ t ∈ g.tasks, t.isAsking = true)
      (hnone : ∀ t ∈ g.tasks, ¬ t.IsDue timeout g.elapsed) :
    Step timeout g { g with elapsed := g.elapsed + 1 }

/-- However the tasks go on, they come to an end with these rows, and before a time is over. -/
inductive Ends (timeout : Nat) (rows : List StatusRow) : Gathering → Prop
  | done {g} (hrows : g.tasks = rows.map .done) (htime : g.elapsed ≤ timeout) : Ends timeout rows g
  | going {g} (hsome : ∃ next, Step timeout g next)
      (hnext : ∀ next, Step timeout g next → Ends timeout rows next) : Ends timeout rows g

/-- No task has waited for longer than it has to. -/
structure OnTime (timeout : Nat) (g : Gathering) : Prop where
  waiting : ∀ service answer, .asking service answer ∈ g.tasks → g.elapsed ≤ answer.wait timeout
  inTime : g.elapsed ≤ timeout

/-- The rows that the tasks have, or come to. -/
def rows (timeout : Nat) (g : Gathering) : List StatusRow :=
  g.tasks.map (StatusTask.comesTo timeout)

/-- What is left to be done: tasks, and time. -/
def remaining (timeout : Nat) (g : Gathering) : Nat :=
  g.tasks.countP StatusTask.isAsking + (timeout - g.elapsed)

variable {g next : Gathering}

theorem rows_set {i : Nat} {t : StatusTask} (htask : g.tasks[i]? = some t) :
    rows timeout { g with tasks := g.tasks.set i (.done (t.comesTo timeout)) } = rows timeout g := by
  have hsame : (g.tasks.map (StatusTask.comesTo timeout))[i]? = some (t.comesTo timeout) := by
    rw [List.getElem?_map, htask, Option.map_some]
  obtain ⟨hi, hsame⟩ := List.getElem?_eq_some_iff.mp hsame
  calc rows timeout { g with tasks := g.tasks.set i (.done (t.comesTo timeout)) }
      = (g.tasks.map (StatusTask.comesTo timeout)).set i (t.comesTo timeout) := List.map_set
    _ = rows timeout g := by
      rw [← hsame]
      exact List.set_getElem_self hi

/-- What a step does: a task gets the row that it comes to, or time passes while somebody waits. -/
theorem OnTime.step_cases (h : g.OnTime timeout) (hstep : Step timeout g next) :
    (∃ i service answer, g.tasks[i]? = some (.asking service answer) ∧
      next = { g with tasks := g.tasks.set i (.done (rowOf timeout service answer)) }) ∨
    ((∃ t ∈ g.tasks, t.isAsking = true) ∧ (∀ t ∈ g.tasks, ¬ t.IsDue timeout g.elapsed) ∧
      next = { g with elapsed := g.elapsed + 1 }) := by
  cases hstep with
  | @answered i service ms result htask hthere =>
    have hwaiting : g.elapsed ≤ min ms timeout := h.waiting _ _ (List.mem_of_getElem? htask)
    have hms : ms ≤ timeout := by omega
    refine .inl ⟨i, service, .after ms result, htask, ?_⟩
    rw [rowOf, bounded_of_le hms]
  | @gaveUp i service answer htask hnone hwaited =>
    refine .inl ⟨i, service, answer, htask, ?_⟩
    rw [rowOf, Fleet.bounded, within_eq_none_of_le hwaited hnone, Option.getD_none]
  | passed hopen hnone => exact .inr ⟨hopen, hnone, rfl⟩

/-- A step changes no row. -/
theorem OnTime.rows_step (h : g.OnTime timeout) (hstep : Step timeout g next) :
    next.rows timeout = g.rows timeout := by
  obtain ⟨i, service, answer, htask, rfl⟩ | ⟨_, _, rfl⟩ := h.step_cases hstep
  · exact rows_set htask
  · rfl

/-- Time does not pass a task by. -/
theorem OnTime.step (h : g.OnTime timeout) (hstep : Step timeout g next) : next.OnTime timeout := by
  obtain ⟨i, service, answer, htask, rfl⟩ | ⟨⟨t, ht, hasking⟩, hnone, rfl⟩ := h.step_cases hstep
  · refine ⟨fun service' answer' hmem => ?_, h.inTime⟩
    rcases List.mem_or_eq_of_mem_set hmem with hold | hnew
    · exact h.waiting service' answer' hold
    · cases hnew
  · have hlater : ∀ service answer, StatusTask.asking service answer ∈ g.tasks →
        g.elapsed + 1 ≤ answer.wait timeout := fun service answer hmem =>
      Nat.lt_of_not_le (hnone _ hmem)
    refine ⟨hlater, ?_⟩
    cases t with
    | done => cases hasking
    | asking service answer => exact Nat.le_trans (hlater service answer ht) answer.wait_le

/-- Every step leaves less to be done. -/
theorem OnTime.remaining_step (h : g.OnTime timeout) (hstep : Step timeout g next) :
    next.remaining timeout < g.remaining timeout := by
  have htime := (h.step hstep).inTime
  obtain ⟨i, service, answer, htask, rfl⟩ | ⟨_, _, rfl⟩ := h.step_cases hstep
  · obtain ⟨hi, htask⟩ := List.getElem?_eq_some_iff.mp htask
    have hasking : g.tasks[i].isAsking = true := by
      rw [htask]
      rfl
    have hpos : 0 < g.tasks.countP StatusTask.isAsking :=
      List.countP_pos_iff.mpr ⟨_, List.getElem_mem hi, hasking⟩
    have hcount : (g.tasks.set i (.done (rowOf timeout service answer))).countP
        StatusTask.isAsking = g.tasks.countP StatusTask.isAsking - 1 := by
      rw [List.countP_set hi, if_pos hasking]
      rfl
    simp only [remaining, hcount]
    omega
  · simp only [remaining]
    simp only at htime
    omega

/-- Tasks can always go on until all have their rows. -/
theorem exists_step (timeout : Nat) (hopen : ∃ t ∈ g.tasks, t.isAsking = true) :
    ∃ next, Step timeout g next := by
  by_cases hdue : ∃ t ∈ g.tasks, t.IsDue timeout g.elapsed
  · obtain ⟨t, ht, hdue⟩ := hdue
    obtain ⟨i, hi⟩ := List.mem_iff_getElem?.mp ht
    cases t with
    | done => exact hdue.elim
    | asking service answer =>
      cases answer with
      | never => exact ⟨_, .gaveUp hi rfl hdue⟩
      | after ms result =>
        have hdue : min ms timeout ≤ g.elapsed := hdue
        by_cases hthere : ms ≤ g.elapsed
        · exact ⟨_, .answered hi hthere⟩
        · exact ⟨_, .gaveUp hi (if_neg hthere) (by omega)⟩
  · exact ⟨_, .passed hopen fun t ht hdue' => hdue ⟨t, ht, hdue'⟩⟩

/-- Tasks that have all their rows have those that they came to. -/
theorem tasks_eq_of_none (h : ¬ ∃ t ∈ g.tasks, t.isAsking = true) :
    g.tasks = (g.rows timeout).map .done := by
  have hdone : ∀ t ∈ g.tasks, t = .done (t.comesTo timeout) := by
    intro t ht
    cases t with
    | asking => exact absurd ⟨_, ht, rfl⟩ h
    | done => rfl
  calc g.tasks = g.tasks.map id := (List.map_id _).symm
    _ = g.tasks.map (fun t => .done (t.comesTo timeout)) := List.map_congr_left hdone
    _ = (g.rows timeout).map .done := List.map_map.symm

/-- Tasks that are on time come to an end with their rows, whatever the order in which they go on. -/
theorem OnTime.ends (h : g.OnTime timeout) : Ends timeout (g.rows timeout) g := by
  induction hn : g.remaining timeout using Nat.strongRecOn generalizing g with
  | ind n ih =>
    by_cases hopen : ∃ t ∈ g.tasks, t.isAsking = true
    · refine .going (exists_step timeout hopen) fun next hstep => ?_
      have hless := h.remaining_step hstep
      rw [hn] at hless
      rw [← h.rows_step hstep]
      exact ih _ hless (h.step hstep) rfl
    · exact .done (tasks_eq_of_none hopen) h.inTime

/-- The tasks that are started for services and their outcomes. -/
def start (asked : List (String × Later (Except StatusError StatusReport))) : Gathering :=
  { elapsed := 0, tasks := asked.map fun a => .asking a.1 a.2 }

/-- Whatever the outcomes are, every order of the tasks ends in the rows that tell of them. -/
theorem start_ends (timeout : Nat)
    (asked : List (String × Later (Except StatusError StatusReport))) :
    (start asked).Ends timeout (asked.map fun a => rowOf timeout a.1 a.2) := by
  have hontime : (start asked).OnTime timeout :=
    ⟨fun _ _ _ => Nat.zero_le _, Nat.zero_le _⟩
  have hrows : (start asked).rows timeout = asked.map fun a => rowOf timeout a.1 a.2 := by
    rw [rows, start, List.map_map]
    rfl
  rw [← hrows]
  exact hontime.ends

end Gathering

/-- Rows that tell of one outcome each are the rows of the outcomes. -/
theorem forall₂_tells_iff {asked : List (String × Later (Except StatusError StatusReport))}
    {rows : List StatusRow} :
    List.Forall₂ (fun a row => Tells timeout a.1 a.2 row) asked rows ↔
      rows = asked.map fun a => rowOf timeout a.1 a.2 := by
  induction asked generalizing rows with
  | nil => simp
  | cons a asked ih =>
    cases rows with
    | nil => simp
    | cons row rows => rw [List.forall₂_cons, tells_iff, ih, List.map_cons, List.cons.injEq]

end FleetWatch
