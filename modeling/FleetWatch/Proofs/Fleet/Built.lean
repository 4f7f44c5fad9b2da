import FleetWatch.Fleet.Build
import FleetWatch.Proofs.Flow.InTurn
import FleetWatch.Proofs.Registry.DependencyOrder
/-!
What building makes of a list of descriptions.

A description whose control settings are accepted has all that its clients are made from, so it can
be built.  Every service that is built is put behind those before it and gets a handle of its own.
-/

namespace FleetWatch

namespace ServiceDescriptor

variable {d : ServiceDescriptor}

theorem validateRpc_eq_ok_iff : d.validateRpc = .ok () ↔ d.rpcFault? = none := by
  unfold validateRpc
  cases d.rpcFault? <;> simp

theorem exists_port (h : d.port?.isNone = false) : ∃ port, d.port = .ok port := by
  obtain ⟨port, hport⟩ := Option.isSome_iff_exists.mp (Option.isNone_eq_false_iff.mp h)
  exact ⟨port, by simp only [ServiceDescriptor.port, hport]⟩

/-- What a kind's clients are made from is there if the control settings are accepted. -/
theorem exists_dialers (h : d.validateRpc = .ok ()) : ∃ dialers, d.dialers = .ok dialers := by
  rw [validateRpc_eq_ok_iff] at h
  unfold rpcFault? at h
  unfold dialers
  cases hkind : d.kind with
  | bitcoind | litecoind | geth | connext =>
    simp only [hkind] at h ⊢
    split at h
    · cases h
    · next hsome =>
      obtain ⟨port, hport⟩ := exists_port (Bool.eq_false_iff.mpr hsome)
      rw [hport]
      exact ⟨_, rfl⟩
  | lnd =>
    simp only [hkind] at h ⊢
    split at h
    · cases h
    · next hsome =>
      obtain ⟨port, hport⟩ := exists_port (Bool.eq_false_iff.mpr hsome)
      rw [hport]
      cases hcertificate : d.rpc.tlsCert with
      | none => simp [hcertificate] at h
      | some certificate =>
        cases hmacaroon : d.rpc.macaroon with
        | none => simp [hcertificate, hmacaroon] at h
        | some macaroon => exact ⟨_, rfl⟩
  | xud | boltz | arby | webui | proxy | generic => exact ⟨_, rfl⟩

end ServiceDescriptor

namespace Fleet

variable {f g : Fleet} {options : ServiceOptions} {d : ServiceDescriptor}
  {ds : List ServiceDescriptor}

/-- The descriptions of a fleet's services, in the order in which they were built. -/
def descriptors (f : Fleet) : List ServiceDescriptor :=
  f.services.map Service.descriptor

/-- Every service has a handle, and no two have the same. -/
structure OwnHandles (f : Fleet) : Prop where
  distinct : (f.services.map Service.handle).Nodup
  there : ∀ s ∈ f.services, s.handle < f.handles.length

theorem addService_eq_ok (h : f.addService options d = .ok g) :
    ∃ dialers, d.dialers = .ok dialers ∧
      g = f.placeService d
        (dialers.map fun (_, dialer) => { dialer, dialLoop := { policy := options.policy } })
        d.probeAt (d.watched options.network) options.callTimeout := by
  unfold addService at h
  obtain ⟨_, _, h⟩ := bind_eq_ok.mp h
  obtain ⟨dialers, hdialers, h⟩ := bind_eq_ok.mp h
  cases h
  exact ⟨dialers, hdialers, rfl⟩

theorem exists_addService (f : Fleet) (options : ServiceOptions) (h : d.validateRpc = .ok ()) :
    ∃ g, f.addService options d = .ok g := by
  obtain ⟨dialers, hdialers⟩ := ServiceDescriptor.exists_dialers h
  unfold addService
  rw [h, hdialers]
  exact ⟨_, rfl⟩

theorem descriptors_addService (h : f.addService options d = .ok g) :
    g.descriptors = f.descriptors ++ [d] := by
  obtain ⟨_, _, rfl⟩ := addService_eq_ok h
  simp only [descriptors, placeService, addHandle, List.map_append, List.map_cons, List.map_nil]

theorem OwnHandles.addService (hown : f.OwnHandles) (h : f.addService options d = .ok g) :
    g.OwnHandles := by
  obtain ⟨_, _, rfl⟩ := addService_eq_ok h
  constructor
  · simp only [placeService, addHandle, List.map_append, List.map_cons, List.map_nil]
    refine List.nodup_append.mpr ⟨hown.distinct, List.nodup_singleton _, ?_⟩
    rintro handle hold _ hnew rfl
    obtain ⟨s, hs, rfl⟩ := List.mem_map.mp hold
    exact absurd (List.mem_singleton.mp hnew) (Nat.ne_of_lt (hown.there s hs))
  · intro s hs
    simp only [placeService, addHandle, List.mem_append, List.mem_singleton] at hs
    simp only [placeService, addHandle, List.length_append, List.length_singleton]
    rcases hs with hold | rfl
    · exact Nat.lt_succ_of_lt (hown.there s hold)
    · exact Nat.lt_succ_self _

/-! ### Looking a name up -/

theorem lastPlace?_eq_none {α : Type} {p : α → Bool} {items : List α}
    (h : ∀ a ∈ items, p a = false) : lastPlace? p items = none := by
  induction items with
  | nil => rfl
  | cons a rest ih =>
    rw [lastPlace?, ih fun b hb => h b (List.mem_cons_of_mem a hb)]
    simp only [h a List.mem_cons_self, Bool.false_eq_true, if_false]

/-- An element that is the only one with a property is at the last place with it. -/
theorem lastPlace?_of_only {α : Type} {p : α → Bool} {items : List α} {i : Nat} {a : α}
    (hi : items[i]? = some a) (ha : p a = true)
    (honly : ∀ j b, items[j]? = some b → p b = true → j = i) : lastPlace? p items = some i := by
  induction items generalizing i with
  | nil => cases hi
  | cons first rest ih =>
    cases i with
    | zero =>
      cases hi
      have hnone : lastPlace? p rest = none := by
        apply lastPlace?_eq_none
        intro b hb
        obtain ⟨j, hj⟩ := List.mem_iff_getElem?.mp hb
        by_contra hp
        exact absurd (honly (j + 1) b hj (Bool.not_eq_false _ ▸ hp)) (Nat.succ_ne_zero j)
      rw [lastPlace?, hnone]
      simp only [ha, if_true]
    | succ i =>
      rw [lastPlace?, ih hi fun j b hj hb => Nat.succ.inj (honly (j + 1) b hj hb)]

/-- A service is found under its name where no two have the same. -/
theorem placeOf?_eq (hnames : (f.descriptors.map ServiceDescriptor.name).Nodup)
    {place : Nat} {s : Service} (hs : f.services[place]? = some s) :
    f.placeOf? s.descriptor.name = some place := by
  have hname : (f.services.map fun s => s.descriptor.name)[place]? = some s.descriptor.name := by
    rw [List.getElem?_map, hs, Option.map_some]
  refine lastPlace?_of_only hs (beq_self_eq_true s.descriptor.name) ?_
  intro j other hj hsame
  have hother : (f.services.map fun s => s.descriptor.name)[j]? = some s.descriptor.name := by
    rw [List.getElem?_map, hj, Option.map_some, eq_of_beq hsame]
  rw [descriptors, List.map_map] at hnames
  obtain ⟨hlength, _⟩ := List.getElem?_eq_some_iff.mp hother
  exact (List.getElem?_inj hlength hnames).mp (hother.trans hname.symm)

/-! ### Adding one service after the other -/

theorem exists_addServices (f : Fleet) (options : ServiceOptions)
    (hvalid : ∀ d ∈ ds, d.validateRpc = .ok ()) :
    ∃ g, ds.foldlM (fun f d => f.addService options d) f = .ok g := by
  induction ds generalizing f with
  | nil => exact ⟨f, rfl⟩
  | cons d ds ih =>
    obtain ⟨next, hnext⟩ := exists_addService f options (hvalid d List.mem_cons_self)
    obtain ⟨g, hg⟩ := ih next fun d hd => hvalid d (List.mem_cons_of_mem _ hd)
    refine ⟨g, ?_⟩
    rw [List.foldlM_cons, hnext]
    exact hg

theorem descriptors_addServices (h : ds.foldlM (fun f d => f.addService options d) f = .ok g) :
    g.descriptors = f.descriptors ++ ds := by
  induction ds generalizing f with
  | nil =>
    cases h
    rw [List.append_nil]
  | cons d ds ih =>
    rw [List.foldlM_cons] at h
    obtain ⟨next, hnext, hrest⟩ := bind_eq_ok.mp h
    rw [ih hrest, descriptors_addService hnext, List.append_assoc, List.singleton_append]

theorem OwnHandles.addServices (hown : f.OwnHandles)
    (h : ds.foldlM (fun f d => f.addService options d) f = .ok g) : g.OwnHandles := by
  induction ds generalizing f with
  | nil =>
    cases h
    exact hown
  | cons d ds ih =>
    rw [List.foldlM_cons] at h
    obtain ⟨next, hnext, hrest⟩ := bind_eq_ok.mp h
    exact ih (hown.addService hnext) hrest

/-! ### Building -/

/-- The services that are built stand in the order of their dependencies. -/
theorem descriptors_build (h : f.build options ds = .ok g) :
    ∃ order, dependencyOrder ds = .ok order ∧ g.descriptors = f.descriptors ++ order := by
  obtain ⟨order, horder, hadded⟩ := bind_eq_ok.mp h
  exact ⟨order, horder, descriptors_addServices hadded⟩

theorem OwnHandles.build (hown : f.OwnHandles) (h : f.build options ds = .ok g) :
    g.OwnHandles := by
  obtain ⟨order, _, hadded⟩ := bind_eq_ok.mp h
  exact hown.addServices hadded

/-- Descriptions that are accepted and have an order are built. -/
theorem exists_build (f : Fleet) (options : ServiceOptions) {order : List ServiceDescriptor}
    (horder : dependencyOrder ds = .ok order) (hvalid : ∀ d ∈ ds, d.validateRpc = .ok ()) :
    ∃ g, f.build options ds = .ok g := by
  have hperm := (isBuildOrder_of_ok horder).2.perm
  unfold build
  rw [horder]
  exact exists_addServices f options fun d hd => hvalid d (hperm.mem_iff.mp hd)

end Fleet

end FleetWatch
