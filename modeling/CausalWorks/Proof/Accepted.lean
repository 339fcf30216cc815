import CausalWorks.Proof.Refinement
import CausalWorks.Proof.Validation

/-!
# Accepted configurations under every iteration order

Whether a configuration is accepted does not depend on the order in which its node map is iterated.
The manifests that two processes build from it differ only in the order of their node tables.
-/

namespace CausalWorks

def IterationOrder.headed (first : NodeId) : IterationOrder where
  nodes := fun entries => entries.filter (fun entry => decide (entry.1 = first)) ++
    entries.filter fun entry => !decide (entry.1 = first)
  nodes_perm := List.filter_append_perm _
  starts := fun ids => ids
  starts_perm := fun _ => .refl _

def ManifestCfg.claims (self : ManifestCfg) (f : DecodedFieldbusFrame) : Bool :=
  self.nodes.any fun n => (n.matcher.into.claim f).isSome

namespace Proof
variable {order order' : IterationOrder} {cfg : ManifestCfg} {m m' : DependencyManifest}

theorem wellFormed_of_build (accepted : cfg.build order = .ok m) : cfg.WellFormed :=
  (build_ok accepted).1

theorem built_of_build (accepted : cfg.build order = .ok m) : cfg.Built m := by
  obtain ⟨-, table, -, holds, rfl⟩ := build_ok accepted
  exact built_new order holds

theorem build_any (order' : IterationOrder) (accepted : cfg.build order = .ok m) :
    ∃ m', cfg.build order' = .ok m' := by
  rcases build_cases order' cfg with ⟨-, table, -, -, built⟩ | ⟨malformed, -⟩
  · exact ⟨_, built⟩
  · exact absurd (wellFormed_of_build accepted) malformed

theorem mem_entries (built : cfg.Built m) {id : NodeId} {matcher : NodeMatcher} :
    ⟨id, matcher⟩ ∈ m.nodes.entries ↔ ∃ n ∈ cfg.nodes, n.id = id ∧ n.matcher.into = matcher := by
  rw [← built.nodes, ← Option.mem_def, AList.mem_lookup_iff]

theorem headed_entries {n : NodeCfg} (declared : n ∈ cfg.nodes)
    (accepted : cfg.build (.headed n.id) = .ok m) :
    ∃ rest, m.nodes.entries = ⟨n.id, n.matcher.into⟩ :: rest := by
  obtain ⟨-, table, -, holds, rfl⟩ := build_ok accepted
  have entry : ⟨n.id, n.matcher.into⟩ ∈ table.entries := by
    rw [← AList.mem_lookup_iff, Option.mem_def, holds]
    exact ⟨n, declared, rfl, rfl⟩
  have head : ∀ e ∈ (table.entries.filter fun e => decide (e.1 = n.id)).head?,
      e = ⟨n.id, n.matcher.into⟩ := by
    intro e first
    obtain ⟨inside, same⟩ := List.mem_filter.mp (List.mem_of_mem_head? first)
    obtain ⟨id, matcher⟩ := e
    obtain rfl : id = n.id := by simpa using same
    have here := List.mem_dlookup table.nodupKeys inside
    have there := List.mem_dlookup table.nodupKeys entry
    rw [Option.mem_def] at here there
    rw [here] at there
    rw [Option.some.inj there]
  have known : ⟨n.id, n.matcher.into⟩ ∈ table.entries.filter fun e => decide (e.1 = n.id) := by
    simp [entry]
  cases kept : table.entries.filter fun e => decide (e.1 = n.id) with
  | nil => simp [kept] at known
  | cons e rest =>
      refine ⟨rest ++ table.entries.filter fun e => !decide (e.1 = n.id), ?_⟩
      rw [kept] at head
      show table.entries.filter _ ++ _ = _
      rw [kept, head e rfl, List.cons_append]

theorem assign_isSome (built : cfg.Built m) (f : DecodedFieldbusFrame) :
    (m.assign f).isSome = cfg.claims f := by
  rw [Bool.eq_iff_iff, DependencyManifest.assign, List.findSome?_isSome_iff, ManifestCfg.claims,
    List.any_eq_true]
  constructor
  · rintro ⟨⟨id, matcher⟩, entry, claims⟩
    obtain ⟨n, declared, rfl, rfl⟩ := (mem_entries built).mp entry
    exact ⟨n, declared, by simpa using claims⟩
  · rintro ⟨n, declared, claims⟩
    exact ⟨⟨n.id, n.matcher.into⟩, (mem_entries built).mpr ⟨n, declared, rfl, rfl⟩,
      by simpa using claims⟩

end Proof
end CausalWorks
