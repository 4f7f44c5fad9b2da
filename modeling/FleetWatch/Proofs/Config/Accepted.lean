import FleetWatch.Proofs.Fleet.Built
import Mathlib.Data.List.Permutation
/-!
An accepted configuration can be built.

Reading a configuration checks the control settings of every entry and puts the services in order.
Building checks the settings again, orders the services again, and takes from each what its clients
are made from.  The second time nothing is found: the settings were accepted before, and a list that
stands in order is its own order.
-/

namespace FleetWatch

/-- The control settings of a service that an entry describes are accepted. -/
theorem ServiceEntry.validateRpc_of_descriptor {e : ServiceEntry} {network : String}
    {d : ServiceDescriptor} (h : e.descriptor network = .ok d) : d.validateRpc = .ok () := by
  unfold descriptor at h
  by_cases hname : (Text.trim e.name).isEmpty = true
  · rw [if_pos hname] at h
    cases h
  · rw [if_neg hname] at h
    obtain ⟨_, hvalid, hd⟩ := bind_eq_ok.mp h
    cases hd
    exact hvalid

namespace Config

variable {file : ConfigFile} {path : String} {env : Environment} {c : Config}

/-- The services of a configuration are those that the entries of its file describe, in order. -/
theorem services_of_ofFile (h : ofFile file path env = .ok c) :
    ∃ described, file.services.mapM (fun e => e.descriptor c.network) = .ok described ∧
      dependencyOrder described = .ok c.services := by
  unfold ofFile at h
  obtain ⟨override, _, h⟩ := bind_eq_ok.mp h
  generalize override.getD (file.network.getD defaultNetwork) = network at h
  by_cases hname : (!isNetworkName network) = true
  · rw [if_pos hname] at h
    cases h
  · rw [if_neg hname] at h
    obtain ⟨settings, _, h⟩ := bind_eq_ok.mp h
    obtain ⟨described, hdescribed, h⟩ := bind_eq_ok.mp h
    obtain ⟨services, horder, h⟩ := bind_eq_ok.mp h
    cases h
    exact ⟨described, hdescribed, horder⟩

/-- A configuration that leaves nothing to be found when it is built. -/
structure IsBuildable (c : Config) : Prop where
  /-- Ordering the services once more changes nothing. -/
  ordered : dependencyOrder c.services = .ok c.services
  /-- A fleet without services, on any engine, gets exactly the configured ones, as they stand. -/
  built : ∀ f : Fleet, f.services = [] →
    ∃ g, f.ofConfig c = .ok g ∧ g.descriptors = c.services

/-- Services whose settings are accepted and that stand in order are built as they stand. -/
theorem isBuildable_of_ordered (hordered : dependencyOrder c.services = .ok c.services)
    (hvalid : ∀ d ∈ c.services, d.validateRpc = .ok ()) : c.IsBuildable := by
  refine ⟨hordered, ?_⟩
  intro f hempty
  obtain ⟨g, hg⟩ := Fleet.exists_build f c.serviceOptions hordered hvalid
  obtain ⟨order, horder, hdescriptors⟩ := Fleet.descriptors_build hg
  have hsame : order = c.services := Except.ok.inj (horder.symm.trans hordered)
  refine ⟨{ g with statusTimeout := c.settings.statusTimeout * 1000 }, ?_, ?_⟩
  · unfold Fleet.ofConfig
    rw [hg]
    rfl
  · calc g.descriptors = f.descriptors ++ order := hdescriptors
      _ = c.services := by rw [Fleet.descriptors, hempty, hsame]; rfl

/-- Whatever a file holds, a configuration made of it is buildable. -/
theorem isBuildable_of_ofFile (h : ofFile file path env = .ok c) : c.IsBuildable := by
  obtain ⟨described, hdescribed, horder⟩ := services_of_ofFile h
  obtain ⟨hdeclared, hbuild⟩ := isBuildOrder_of_ok horder
  have hnames : (c.services.map ServiceDescriptor.name).Nodup :=
    (hbuild.perm.map _).nodup_iff.mpr hdeclared.nodup
  apply isBuildable_of_ordered (dependencyOrder_of_afterPeers hnames hbuild.afterPeers)
  intro d hd
  obtain ⟨e, _, he⟩ := exists_of_mem_mapM hdescribed (hbuild.perm.mem_iff.mp hd)
  exact ServiceEntry.validateRpc_of_descriptor he

/-- Every configuration that is accepted can be built on every engine. -/
theorem isBuildable_of_parse {text : String} (h : parse text path env = .ok c) :
    c.IsBuildable := by
  unfold parse at h
  split at h
  · cases h
  · exact isBuildable_of_ofFile h

/-- Two services of which the first sees the second. -/
def laterPeerText : String :=
  "[[services]]\nname = \"geth\"\nkind = \"geth\"\ndepends_on = [\"xud\"]\n" ++
  "[[services]]\nname = \"xud\"\nkind = \"xud\"\n"

def laterPeerServices : List ServiceDescriptor :=
  [{ name := "xud", container := "testnet_xud_1", kind := .xud, rpc := { host := "xud" } },
   { name := "geth", container := "testnet_geth_1", kind := .geth, dependsOn := ["xud"]
     rpc := { host := "geth" } }]

theorem parse_laterPeerText :
    parse laterPeerText defaultPath (fun _ => .ok none) =
      .ok { network := "testnet", path := defaultPath, settings := .defaults "testnet"
            services := laterPeerServices } := by
  have hfile : ConfigFile.parse laterPeerText =
      .ok { services :=
              [{ name := "geth", kind := .geth, dependsOn := ["xud"] },
               { name := "xud", kind := .xud }] } := by
    cbv
  have horder : dependencyOrder laterPeerServices.reverse = .ok laterPeerServices := by
    cbv
  unfold parse
  rw [hfile]
  change (dependencyOrder laterPeerServices.reverse >>= fun services =>
    Except.ok (Config.mk "testnet" defaultPath (.defaults "testnet") services)) = _
  rw [horder]
  rfl

theorem laterPeer_isBuildable :
    ∃ c, parse laterPeerText defaultPath (fun _ => .ok none) = .ok c ∧
      c.services = laterPeerServices ∧ c.IsBuildable :=
  ⟨_, parse_laterPeerText, rfl, isBuildable_of_parse parse_laterPeerText⟩

end Config

end FleetWatch
