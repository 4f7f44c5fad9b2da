import FleetWatch.Command.Run
import FleetWatch.Proofs.Fleet.Built
import FleetWatch.Proofs.Fleet.Gathering
import FleetWatch.Proofs.Fleet.StatusDerivation
/-!
What the status table shows.

A fleet's services are asked in the order in which they were built.  Asking one leaves the services
and the time limit as they are, so the table has one row for each, in that order.  Main statement: a
row tells of its own service's outcome alone, it is the row that waiting side by side ends in, and
asking for that one service gives the same.
-/

namespace FleetWatch

namespace Fleet

variable {f : Fleet} {place : Nat} {s : Service}

/-! ### Asking leaves the fleet's services in place -/

theorem descriptors_eq (f : Fleet) :
    f.descriptors = (f.services.map Service.sansCalls).map Service.descriptor := by
  rw [List.map_map]
  rfl

theorem descriptors_status (h : f.services[place]? = some s) :
    (f.status place s).2.descriptors = f.descriptors := by
  rw [descriptors_eq, services_status h, ← descriptors_eq]

theorem statusTimeout_status (f : Fleet) (place : Nat) (s : Service) :
    (f.status place s).2.statusTimeout = f.statusTimeout := by
  obtain ⟨_, _, _, hstatus, _⟩ := status_changes f place s
  rw [hstatus]

/-! ### The services' own outcomes -/

/-- The fleet once its first `n` services were asked for their status. -/
def askedFirst (f : Fleet) : Nat → Fleet
  | 0 => f
  | n + 1 =>
    match (f.askedFirst n).services[n]? with
    | some s => ((f.askedFirst n).status n s).2
    | none => f.askedFirst n

/-- What the service at a place answers when its turn comes. -/
def outcome (f : Fleet) (place : Nat) : Later (Except StatusError StatusReport) :=
  match (f.askedFirst place).services[place]? with
  | some s => ((f.askedFirst place).status place s).1
  | none => .never

/-- Every service by name, with its outcome. -/
def outcomes (f : Fleet) : List (String × Later (Except StatusError StatusReport)) :=
  f.services.mapIdx fun i s => (s.descriptor.name, f.outcome i)

theorem descriptors_askedFirst (f : Fleet) (n : Nat) :
    (f.askedFirst n).descriptors = f.descriptors := by
  induction n with
  | zero => rfl
  | succ n ih =>
    rw [askedFirst]
    split
    · next h => rw [descriptors_status h, ih]
    · exact ih

theorem statusTimeout_askedFirst (f : Fleet) (n : Nat) :
    (f.askedFirst n).statusTimeout = f.statusTimeout := by
  induction n with
  | zero => rfl
  | succ n ih =>
    rw [askedFirst]
    split
    · rw [statusTimeout_status, ih]
    · exact ih

theorem exists_service_askedFirst {n : Nat} {d : ServiceDescriptor}
    (h : f.descriptors[n]? = some d) :
    ∃ s, (f.askedFirst n).services[n]? = some s ∧ s.descriptor = d := by
  rw [← descriptors_askedFirst f n, descriptors, List.getElem?_map] at h
  exact Option.map_eq_some_iff.mp h

theorem status_askedFirst {n : Nat} (h : (f.askedFirst n).services[n]? = some s) :
    (f.askedFirst n).status n s = (f.outcome n, f.askedFirst (n + 1)) := by
  rw [outcome, askedFirst]
  simp only [h]

/-- The rows from a place on are those of the outcomes from there on. -/
theorem statusRows_askedFirst (f : Fleet) {n : Nat} {rest : List Service}
    (hrest : f.descriptors.drop n = rest.map Service.descriptor) :
    ((f.askedFirst n).statusRows n rest).1 =
      rest.mapIdx fun i s => rowOf f.statusTimeout s.descriptor.name (f.outcome (n + i)) := by
  induction rest generalizing n with
  | nil => rfl
  | cons s rest ih =>
    have hhere : f.descriptors[n]? = some s.descriptor := by
      rw [← List.head?_drop, hrest]
      rfl
    have hlater : f.descriptors.drop (n + 1) = rest.map Service.descriptor := by
      rw [← List.tail_drop, hrest]
      rfl
    obtain ⟨s', hs', _⟩ := exists_service_askedFirst hhere
    rw [statusRows, hs', Option.getD_some, status_askedFirst hs', List.mapIdx_cons]
    simp only [ih hlater, statusTimeout_askedFirst, List.cons.injEq]
    refine ⟨rfl, ?_⟩
    simp only [Nat.add_assoc, Nat.add_comm 1]

/-- The rows of the table are those of the outcomes. -/
theorem statusTable_eq (f : Fleet) :
    f.statusTable.1 = f.outcomes.map fun a => rowOf f.statusTimeout a.1 a.2 := by
  have hall : f.descriptors.drop 0 = f.services.map Service.descriptor := rfl
  calc f.statusTable.1
      = ((f.askedFirst 0).statusRows 0 f.services).1 := rfl
    _ = f.services.mapIdx fun i s =>
          rowOf f.statusTimeout s.descriptor.name (f.outcome (0 + i)) := statusRows_askedFirst f hall
    _ = f.outcomes.map fun a => rowOf f.statusTimeout a.1 a.2 := by
      refine List.mapIdx_eq_iff.mpr fun i => ?_
      rw [outcomes, List.getElem?_map, List.getElem?_mapIdx, Option.map_map, Nat.zero_add]
      rfl

theorem names_outcomes (f : Fleet) :
    f.outcomes.map Prod.fst = f.descriptors.map ServiceDescriptor.name := by
  apply List.ext_getElem?
  intro i
  simp only [outcomes, descriptors, List.getElem?_map, List.getElem?_mapIdx, Option.map_map]
  rfl

/-! ### One service alone -/

/-- Asking for one service gives the row of its outcome. -/
theorem statusOfOne_eq (hnames : (f.descriptors.map ServiceDescriptor.name).Nodup)
    (hs : f.services[place]? = some s) :
    (CommandRun.statusOfOne f s.descriptor.name).1 =
      .ok (rowOf f.statusTimeout s.descriptor.name (f.status place s).1) := by
  have htimeout := statusTimeout_status f place s
  unfold CommandRun.statusOfOne statusOf
  simp only [placeOf?_eq hnames hs, hs, htimeout]
  unfold rowOf
  cases bounded f.statusTimeout s.descriptor.name (f.status place s).1 <;> rfl

/-- The command for one service prints its row. -/
theorem printed_status {name : String} {row : StatusRow}
    (h : (CommandRun.statusOfOne f name).1 = .ok row) (clock : String) (asJson : Bool) :
    (CommandRun.start f clock (.status (some name) asJson)).printed =
      Output.statuses [row] asJson := by
  unfold CommandRun.start
  cases hone : CommandRun.statusOfOne f name with
  | mk result g =>
    rw [hone] at h
    cases h
    simp only [hone, CommandRun.print, String.empty_append]

/-! ### The table -/

/-- The status table of a fleet whose services are to stand in an order. -/
structure ShowsOutcomes (f : Fleet) (order : List ServiceDescriptor) : Prop where
  /-- Every service is asked, in the order. -/
  names : f.outcomes.map Prod.fst = order.map ServiceDescriptor.name
  /-- There is one row for each, and it tells of that service's outcome. -/
  rows : List.Forall₂ (fun a row => Tells f.statusTimeout a.1 a.2 row) f.outcomes f.statusTable.1
  /-- Whatever the services' outcomes are, there is one such table. -/
  table : ∀ asked : List (String × Later (Except StatusError StatusReport)),
    ∃! rows, List.Forall₂ (fun a row => Tells f.statusTimeout a.1 a.2 row) asked rows
  /-- Tasks that wait side by side end in it, in whatever order they go on. -/
  gathered : ∀ asked rows,
    List.Forall₂ (fun a row => Tells f.statusTimeout a.1 a.2 row) asked rows →
      (Gathering.start asked).Ends f.statusTimeout rows
  /-- Wherever one of the services is asked for alone, the row of its outcome is printed. -/
  single : ∀ g : Fleet, g.descriptors = order → g.statusTimeout = f.statusTimeout →
    ∀ place s, g.services[place]? = some s →
      ∀ row, Tells f.statusTimeout s.descriptor.name (g.status place s).1 row →
        (CommandRun.statusOfOne g s.descriptor.name).1 = .ok row ∧
        ∀ clock asJson,
          (CommandRun.start g clock (.status (some s.descriptor.name) asJson)).printed =
            Output.statuses [row] asJson

/-- The table of a fleet that was built shows the outcomes of its services, in the order in which
they were built. -/
theorem statusTable_showsOutcomes {ds : List ServiceDescriptor}
    (horder : dependencyOrder ds = .ok f.descriptors) :
    IsBuildOrder ds f.descriptors ∧ f.ShowsOutcomes f.descriptors := by
  obtain ⟨hdeclared, hbuild⟩ := isBuildOrder_of_ok horder
  have hnames : (f.descriptors.map ServiceDescriptor.name).Nodup :=
    (hbuild.perm.map _).nodup_iff.mpr hdeclared.nodup
  refine ⟨hbuild, names_outcomes f, ?_, ?_, ?_, ?_⟩
  · exact forall₂_tells_iff.mpr (statusTable_eq f)
  · intro asked
    exact ⟨_, forall₂_tells_iff.mpr rfl, fun rows hrows => forall₂_tells_iff.mp hrows⟩
  · intro asked rows hrows
    rw [forall₂_tells_iff.mp hrows]
    exact Gathering.start_ends f.statusTimeout asked
  · intro g hdescriptors htimeout place s hs row hrow
    rw [← hdescriptors] at hnames
    have hone : (CommandRun.statusOfOne g s.descriptor.name).1 = .ok row := by
      rw [tells_iff.mp hrow, statusOfOne_eq hnames hs, htimeout]
    exact ⟨hone, fun clock asJson => printed_status hone clock asJson⟩

/-- Two services, of which the first sees the second. -/
def hungServices : List ServiceDescriptor :=
  [{ name := "webui", container := "webui", kind := .webui, dependsOn := ["proxy"]
     rpc := { host := "webui" } },
   { name := "proxy", container := "proxy", kind := .proxy, rpc := { host := "proxy" } }]

/-- The services in their order, with containers that run.  The second one's backend hangs. -/
def hungFleet : Fleet :=
  { engine := .script
      { wall := default
        inspections :=
          [.ok { id := "1", name := "", state := .running, env := [], startedAt := none }] }
    handles := [{ name := "proxy" }, { name := "webui" }]
    services :=
      [{ descriptor := hungServices[1], handle := 0, probe := .scripted (.report "Ready") 0 0 },
       { descriptor := hungServices[0], handle := 1, probe := .scripted .hanging 0 0
         peers := [("proxy", 0)] }] }

theorem dependencyOrder_hungServices :
    dependencyOrder hungServices = .ok hungFleet.descriptors := by
  cbv

theorem hungFleet_showsOutcomes :
    hungFleet.statusTable.1 =
        [{ service := "proxy", status := "Ready", detail := none },
         { service := "webui", detail := none
           status := "Error: status of 'webui' timed out after 10s" }] ∧
      IsBuildOrder hungServices hungFleet.descriptors ∧
      hungFleet.ShowsOutcomes hungFleet.descriptors :=
  ⟨by rfl, statusTable_showsOutcomes dependencyOrder_hungServices⟩

end Fleet

end FleetWatch
