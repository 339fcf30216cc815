import CausalWorks.Proof.Refinement

/-!
# The engine over the window of the last `CAP` transitions

The ring is an implementation of the newest part of an unbounded history: the walk gives the same
analysis over the list of the last `CAP` transitions.
-/

namespace CausalWorks

def backtrackOver (profile : Profile) (manifest : DependencyManifest) (history : History)
    (trip : StateTransition) : Except Fault TripAnalysis :=
  backtrackWith profile (fun node beforeTs => .ok (lastBefore history node beforeTs)) manifest trip

namespace Proof

structure WindowOf {CAP : Nat} (profile : Profile) (manifest : DependencyManifest)
    (frames : List DecodedFieldbusFrame) (s : CausalGraphObserver CAP)
    (results : List (Option TripAnalysis)) : Prop where
  recent : s.ring.iterRev = ((manifest.transitions frames).reverse.take CAP).map .ok
  walked : ∀ i analysis, results[i]? = some (some analysis) →
    backtrackOver profile manifest
      ((manifest.transitions (frames.take (i + 1))).reverse.take CAP) analysis.tripEvent =
        .ok analysis
  unrestricted : ∀ i analysis, results[i]? = some (some analysis) →
    (manifest.transitions (frames.take (i + 1))).length ≤ CAP →
    backtrackOver profile manifest (manifest.transitions (frames.take (i + 1))).reverse
      analysis.tripEvent = .ok analysis

def RunsOverWindow (CAP : Nat) (profile : Profile) (manifest : DependencyManifest)
    (frames : List DecodedFieldbusFrame) : Prop :=
  match (CausalGraphObserver.new manifest : CausalGraphObserver CAP).run profile frames with
  | .ok (s, results) => WindowOf profile manifest frames s results
  | .error fault => DevOnly profile fault

theorem backtrackOver_ok (profile : Profile) {manifest : DependencyManifest}
    (indexed : manifest.Indexed) (window : History) (trip : StateTransition) :
    backtrackOver profile manifest window trip = .ok (attribution manifest window trip) :=
  backtrackWith_ok profile indexed window trip

theorem analysis_walked {CAP : Nat} (profile : Profile) {manifest : DependencyManifest}
    (indexed : manifest.Indexed) {frames : List DecodedFieldbusFrame} {i : Nat}
    {analysis : TripAnalysis}
    (reported :
      (analyses manifest.record manifest (List.take CAP) [] frames)[i]? = some (some analysis)) :
    backtrackOver profile manifest
      ((manifest.transitions (frames.take (i + 1))).reverse.take CAP) analysis.tripEvent =
        .ok analysis := by
  obtain ⟨trip, before, history, rfl⟩ := analysis_at manifest reported
  rw [← historyOf_eq, history]
  exact backtrackOver_ok profile indexed _ trip

theorem runs_over_window {CAP : Nat} (positive : 0 < CAP) (profile : Profile) (nodes : NodeTable)
    (edges : List DependencyEdge) (tripNode : NodeId) (frames : List DecodedFieldbusFrame) :
    RunsOverWindow CAP profile (.new nodes edges tripNode) frames := by
  have indexed := new_indexed nodes edges tripNode
  unfold RunsOverWindow
  rcases run_new_cases positive profile indexed frames with ⟨after, done, refines⟩ |
    ⟨fault, devOnly, done⟩
  · rw [done]
    constructor
    · rw [iterRev_ok refines.ring, historyOf_eq]
    · exact fun i analysis reported => analysis_walked profile indexed reported
    · intro i analysis reported few
      have walked := analysis_walked profile indexed reported
      rwa [List.take_of_length_le (by simpa using few)] at walked
  · rw [done]
    exact devOnly

theorem runs_over_window_cell : RunsOverWindow 4 .dev Cell.manifest Cell.jitter :=
  runs_over_window (by decide) .dev _ _ _ _

end Proof
end CausalWorks
