import CausalWorks.Proof.Exits
import CausalWorks.Proof.Fixture
import CausalWorks.Proof.SelfContained

/-!
# From the script to the evidence

What happens in a cell is written as a capture, read, parsed, analysed and stored. The stored rows
follow from the script alone, whatever the stages in between do to it.
-/

namespace CausalWorks
open Delivery (Response)

namespace DependencyManifest

def tripsOf (self : DependencyManifest) :
    History → List DecodedFieldbusFrame → List (StateTransition × History)
  | _, [] => []
  | history, f :: frames =>
      let (after, trip) := self.record history f
      trip.toList.map (·, after.take 10000) ++ self.tripsOf after frames

end DependencyManifest

def toldFrames (script : List ScriptEntry) : List DecodedFieldbusFrame :=
  (script.filterMap ScriptEntry.decoded).map fun told => ⟨.ofNat told.1, told.2, []⟩

def DependencyManifest.scriptAnalyses (self : DependencyManifest) (script : List ScriptEntry) :
    List TripAnalysis :=
  (self.tripsOf [] (toldFrames script)).map fun trip => attribution self trip.2 trip.1

namespace Proof
variable {manifest : DependencyManifest}

def bare (f : DecodedFieldbusFrame) : DecodedFieldbusFrame := { f with raw := [] }

theorem trips_accepted (history : History) (packets : List Packet) :
    manifest.trips history packets = manifest.tripsOf history (acceptedFrames packets) := by
  induction packets generalizing history with
  | nil => rfl
  | cons packet packets ih =>
      rw [DependencyManifest.trips, DependencyManifest.capture]
      rcases parseFrame_cases packet.1 packet.2 with ⟨proto, parsed⟩ | ⟨error, failed⟩
      · rw [parsed, acceptedFrames_ok _ parsed, DependencyManifest.tripsOf]
        exact congrArg _ (ih _)
      · rw [failed, acceptedFrames_err _ failed]
        exact ih history

theorem tripsOf_bare (history : History) (frames : List DecodedFieldbusFrame) :
    manifest.tripsOf history (frames.map bare) = manifest.tripsOf history frames := by
  induction frames generalizing history with
  | nil => rfl
  | cons f frames ih =>
      rw [List.map_cons, DependencyManifest.tripsOf, DependencyManifest.tripsOf]
      have same : manifest.record history (bare f) = manifest.record history f := rfl
      rw [same]
      exact congrArg _ (ih _)

theorem bare_accepted (packets : List Packet) : (acceptedFrames packets).map bare =
    ((packets.map fun packet => (packet.1.toNat, packet.2)).filterMap decodedAt).map
      fun told => ⟨.ofNat told.1, told.2, []⟩ := by
  induction packets with
  | nil => rfl
  | cons packet packets ih =>
      rw [List.map_cons, List.filterMap_cons, decodedAt]
      dsimp only
      rw [UInt64.ofNat_toNat]
      rcases parseFrame_cases packet.1 packet.2 with ⟨proto, parsed⟩ | ⟨error, failed⟩
      · rw [parsed, acceptedFrames_ok _ parsed]
        dsimp only
        rw [List.map_cons, List.map_cons, ih, UInt64.ofNat_toNat]
        rfl
      · rw [failed, acceptedFrames_err _ failed]
        exact ih

theorem packets_read {profile : Profile} {bytes : List UInt8} {schedule : List Response}
    {src : StreamingPcapSource} {packets : List Packet} {frames : List (Nat × List UInt8)}
    (opened : StreamingPcapSource.new ⟨bytes, schedule⟩ = .ok src)
    (drained : (drain (StreamingPcapSource.nextFrame profile) (bytes.length + 1) src).1.map
      Prod.fst = packets)
    (yields : ∀ fuel, frames.length < fuel →
      (drain (StreamingPcapSource.nextFrame profile) fuel src).1.map
        (fun frame => (frame.1.1.toNat, frame.1.2)) = frames) :
    packets.map (fun packet => (packet.1.toNat, packet.2)) = frames := by
  obtain ⟨fmt, long, magic, at_⟩ := stream_opened opened
  obtain ⟨read, ending, reads⟩ := reads_total fmt (bytes.drop 24)
  have size := reads_length reads
  rw [List.length_drop] at size
  have all := (stream_drain profile reads at_ (bytes.length + 1) (by omega)).1
  have more := (stream_drain profile reads at_ (max read.length frames.length + 1) (by omega)).1
  rw [← yields (max read.length frames.length + 1) (by omega), ← drained, all, ← more,
    List.map_map]
  rfl

theorem capture_to_evidence {order : IterationOrder} {cfg : ManifestCfg}
    (accepted : cfg.build order = .ok manifest) {profile : Profile}
    (readable : profile = .release ∨ cfg.Readable) {JsonError : Type}
    {toJson : CausalTrace → Except JsonError String}
    (serializes : ∀ trace, ∃ text, toJson trace = .ok text) (schedule : List Response)
    {script : List ScriptEntry} (fits : ∀ entry ∈ script, entry.Fits) :
    ∃ bytes, scriptCapture profile script = .ok bytes ∧ ∀ file : CaptureFile,
      file.content = ⟨bytes, schedule⟩ → ∃ state src,
        runWithManifest profile order toJson file.bound cfg file = .ok (state, src) ∧
        EvidenceKept profile toJson (manifest.scriptAnalyses script) state.sink := by
  obtain ⟨requests, made, writable, decoded⟩ := requests_ok profile fits
  obtain ⟨bytes, written, eager, stream, -, opened, yields⟩ :=
    writePcap_yields profile schedule writable
  refine ⟨bytes, ?_, fun file content => ?_⟩
  · rw [scriptCapture, made]
    exact written
  obtain ⟨⟨_, _⟩, short⟩ := file
  cases content
  set file : CaptureFile := ⟨⟨bytes, schedule⟩, short⟩
  have enough : file.content.items.length < file.bound := Nat.lt_succ_self _
  obtain ⟨after, packets, drained, run, -, kept⟩ :=
    run_keeps accepted profile serializes file opened enough
  have read := packets_read opened drained fun fuel enough => (yields fuel enough).2.frames_eq
  have told : (acceptedFrames packets).map bare = toldFrames script := by
    rw [bare_accepted, read, decoded]
    rfl
  obtain ⟨⟨state, src⟩, done⟩ :=
    @run_comes_through _ profile toJson cfg order manifest accepted readable serializes file _
      opened
  rw [done] at kept
  refine ⟨state, src, done, ?_⟩
  obtain ⟨final, looped, is⟩ := bind_ok (run.symm.trans done)
  have reported := reports_eq (indexed_of_build accepted) (refines_new (by decide) manifest) looped
  rw [DependencyManifest.scriptAnalyses, ← told, tripsOf_bare, ← trips_accepted, ← reported]
  exact kept.2

theorem capture_to_evidence_synth : ∃ bytes, scriptCapture .dev synthScript = .ok bytes ∧
    (∀ file : CaptureFile, file.content = ⟨bytes, [.interrupted, .chunk 3]⟩ → ∃ state src,
      runWithManifest .dev .declared Cell.written file.bound Cell.cfg file = .ok (state, src) ∧
      EvidenceKept .dev Cell.written (Cell.manifest.scriptAnalyses synthScript) state.sink) ∧
    ((Cell.manifest.scriptAnalyses synthScript).map fun analysis =>
      (analysis.tripEvent.tsNs, analysis.rankedCatalysts.map fun c => (c.edge, c.observedDtNs))) =
        [(42000000, [(⟨Cell.amr, Cell.fanuc, 3000000⟩, 10000000)])] := by
  have fits : ∀ entry ∈ synthScript, entry.Fits := by
    intro entry member
    fin_cases member <;> exact ⟨by decide, by decide, by decide⟩
  have readable : Cell.cfg.Readable := by
    intro n declared
    fin_cases declared <;> simp [NodeMatcherCfg.Readable]
  obtain ⟨bytes, written, stored⟩ := capture_to_evidence Cell.build_cfg (Or.inr readable)
    (fun _ => ⟨_, rfl⟩ : ∀ trace, ∃ text, Cell.written trace = .ok text)
    [.interrupted, .chunk 3] fits
  exact ⟨bytes, written, stored, by decide +kernel⟩

end Proof
end CausalWorks
