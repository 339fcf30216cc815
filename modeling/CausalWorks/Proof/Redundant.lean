import CausalWorks.Proof.Capacity
import CausalWorks.Proof.Transport

/-!
# Traffic that has no part in a trip

Frames of nodes that do not lead to the trip node, and frames that are captured several times over,
take up places of the ring and sequence numbers, and nothing else. Without them the engine reports
what one with a longer memory reports with them.
-/

namespace CausalWorks
open Relation

def StateTransition.unnumbered (self : StateTransition) : StateTransition := { self with seq := 0 }

namespace DependencyManifest
variable (self : DependencyManifest)

end DependencyManifest

namespace Proof
variable {manifest : DependencyManifest} {history fewer : History} {node : NodeId}
  {t t' : StateTransition}

theorem unnumbered_relabels : Relabels StateTransition.unnumbered := ⟨fun _ => rfl, fun _ => rfl⟩

theorem attribution_unnumbered (window : History) (trip : StateTransition) :
    attribution manifest (window.map (·.unnumbered)) trip.unnumbered =
      (attribution manifest window trip).map (·.unnumbered) :=
  attribution_map (keepsSpans_of_times fun _ => rfl) unnumbered_relabels

theorem analyses_cons (keep : History → History) (packet : Packet) (packets : List Packet) :
    analyses manifest.capture manifest keep history (packet :: packets) =
      (manifest.capture history packet).2.map
          (attribution manifest (keep (manifest.capture history packet).1)) ::
        analyses manifest.capture manifest keep (manifest.capture history packet).1 packets := rfl

theorem analyses_whole {packets : List Packet} {keep : Nat}
    (few : history.length + packets.countP (claimed manifest) ≤ keep) :
    analyses manifest.capture manifest (List.take keep) history packets =
      analyses manifest.capture manifest id history packets := by
  induction packets generalizing history with
  | nil => rfl
  | cons packet packets ih =>
      have grown : (manifest.capture history packet).1.length =
          history.length + if claimed manifest packet then 1 else 0 := by
        rw [capture_eq, claimed]
        cases reading manifest packet <;> rfl
      rw [List.countP_cons] at few
      rw [analyses_cons, analyses_cons, ih (by omega), List.take_of_length_le (by omega), id]

end Proof
end CausalWorks
