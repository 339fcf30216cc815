import CausalWorks.DemoRun
import CausalWorks.Proof.Evidence
import CausalWorks.Proof.Sighting

/-!
# The event window mirrors the engine

The event log of the demo run and the engine are pushed to by different code. They stay in lockstep,
so the window of a trip is what the engine has recorded, and it has every transition that a
catalyst refers to.
-/

namespace CausalWorks

def CausalGraphObserver.recorded {CAP : Nat} (profile : Profile) (self : CausalGraphObserver CAP) :
    List Packet → List StateTransition
  | [] => []
  | packet :: packets =>
      match self.feed profile packet with
      | .ok (after, _) =>
          let newest := match after.ring.iterRev with
            | .ok t :: _ => [t]
            | _ => []
          (if after.seq = self.seq then [] else newest) ++ after.recorded profile packets
      | .error _ => []

structure EventOf (tripTs : UInt64) (e : TraceEvent) (t : StateTransition) : Prop where
  seq : e.seq = t.seq
  node : e.node = t.node
  tsNs : e.tsNs = t.tsNs
  interlock : e.interlock = t.interlock
  offset : e.offsetFromTripNs.toInt = (t.tsNs.toNat : Int) - tripTs.toNat

/-- Every catalyst of the trace finds its trigger and its effect among the events. -/
def CausalTrace.SelfContained (self : CausalTrace) : Prop :=
  ∀ c ∈ self.rankedCatalysts, ∃ trigger ∈ self.eventSequence, ∃ effect ∈ self.eventSequence,
    trigger.seq = c.triggerSeq ∧ trigger.node = c.edgeFrom ∧ effect.seq = c.effectSeq ∧
      effect.node = c.edgeTo ∧ trigger.tsNs.toNat + c.observedDtNs.toNat = effect.tsNs.toNat

structure WindowMirrors (recorded : List StateTransition) (analysis : TripAnalysis)
    (trace : CausalTrace) : Prop where
  catalysts : trace.rankedCatalysts = analysis.rankedCatalysts.map .ofCandidate
  history : ∃ before, before ++ [analysis.tripEvent] <+: recorded ∧
    List.Forall₂ (EventOf analysis.tripEvent.tsNs) trace.eventSequence
      (before ++ [analysis.tripEvent])
  numbered : ∀ (i : Nat) (e : TraceEvent), trace.eventSequence[i]? = some e → e.seq.toNat = i
  tripOnce : ∃ (before : List TraceEvent) (last : TraceEvent),
    trace.eventSequence = before ++ [last] ∧ last.seq = analysis.tripEvent.seq ∧
      ∀ e ∈ before, e.seq ≠ analysis.tripEvent.seq
  contained : trace.SelfContained

def demoKey (analysis : TripAnalysis) : OrderKey :=
  { tsNs := analysis.tripEvent.tsNs
    traceId := formatTraceId "APPL-DEMO-01" analysis.tripEvent.tsNs analysis.tripEvent.seq }

/-- The trace is the one that the loop builds for the trip, and the row holds its JSON text. -/
structure DemoTrace {JsonError : Type} (toJson : CausalTrace → Except JsonError String)
    (recorded : List StateTransition) (analysis : TripAnalysis) (row : TraceRow)
    (trace : CausalTrace) : Prop where
  built : trace =
    .build "APPL-DEMO-01" analysis trace.eventSequence "SF-ENTRY-GATE" 50000000
  mirrors : WindowMirrors recorded analysis trace
  stored : TraceRow.fromTrace toJson trace = .ok row
  evidence : toJson trace = .ok row.evidenceJson
  key : row.orderKey = demoKey analysis

def DemoRow {JsonError : Type} (toJson : CausalTrace → Except JsonError String)
    (recorded : List StateTransition) (analysis : TripAnalysis) (row : TraceRow) : Prop :=
  ∃ trace, DemoTrace toJson recorded analysis row trace

def DemoMirrors {JsonError : Type} (toJson : CausalTrace → Except JsonError String)
    (recorded : List StateTransition) (analyses : List TripAnalysis)
    (run : Except (Stop (DemoError JsonError)) (DemoRun × List TraceRow)) : Prop :=
  match run with
  | .ok (state, all) => state.trips = analyses.length ∧ ∃ rows, all.Perm rows ∧
      List.Forall₂ (DemoRow toJson recorded) analyses rows
  | .error (.err (.json _)) => True
  | .error _ => False

def Cell.lateCapture : List UInt8 :=
  [0xd4, 0xc3, 0xb2, 0xa1] ++ List.replicate 20 0 ++
    record [0xe8, 0x03] (plcBytes true) ++ record [0xd0, 0x07] (udpBytes 7400) ++
    record [0xf8, 0x2a] (udpBytes 60008) ++ record [0xc8, 0x32] (plcBytes false)

def Cell.lateFile : CaptureFile := ⟨⟨lateCapture, []⟩, by decide +kernel⟩

def Cell.late : List Packet := [(1000000, plcBytes true), (2000000, udpBytes 7400),
  (11000000, udpBytes 60008), (13000000, plcBytes false)]

def Cell.lateJson : String := String.intercalate "\n"
  ["\x7b", "  \"trace_id\": \"APPL-DEMO-01:13000000:3\",", "  \"appliance_id\": \"APPL-DEMO-01\",",
    "  \"trip_ts_ns\": 13000000,", "  \"root_catalyst\": \x7b", "    \"edge_from\": 1,",
    "    \"edge_to\": 2,", "    \"observed_dt_ns\": 9000000,", "    \"wcet_ns\": 3000000,",
    "    \"normalized_overrun\": 2.0,", "    \"trigger_seq\": 1,", "    \"effect_seq\": 2",
    "  \x7d,", "  \"ranked_catalysts\": [", "    \x7b", "      \"edge_from\": 1,",
    "      \"edge_to\": 2,", "      \"observed_dt_ns\": 9000000,", "      \"wcet_ns\": 3000000,",
    "      \"normalized_overrun\": 2.0,", "      \"trigger_seq\": 1,", "      \"effect_seq\": 2",
    "    \x7d", "  ],", "  \"event_sequence\": [", "    \x7b", "      \"seq\": 0,",
    "      \"node\": 3,", "      \"ts_ns\": 1000000,", "      \"offset_from_trip_ns\": -12000000,",
    "      \"interlock\": true", "    \x7d,", "    \x7b", "      \"seq\": 1,", "      \"node\": 1,",
    "      \"ts_ns\": 2000000,", "      \"offset_from_trip_ns\": -11000000,",
    "      \"interlock\": null", "    \x7d,", "    \x7b", "      \"seq\": 2,", "      \"node\": 2,",
    "      \"ts_ns\": 11000000,", "      \"offset_from_trip_ns\": -2000000,",
    "      \"interlock\": null", "    \x7d,", "    \x7b", "      \"seq\": 3,", "      \"node\": 3,",
    "      \"ts_ns\": 13000000,", "      \"offset_from_trip_ns\": 0,", "      \"interlock\": false",
    "    \x7d", "  ],", "  \"iso13849\": \x7b", "    \"safety_function_id\": \"SF-ENTRY-GATE\",",
    "    \"configured_response_budget_ns\": 50000000,",
    "    \"observed_response_time_ns\": 11000000,", "    \"response_within_budget\": true,",
    "    \"finding\": \"AttributableNuisanceTrip\"", "  \x7d", "\x7d"]

namespace Proof
open Demo DemoRun

/-! ## The demo cell -/

section
variable {order : IterationOrder} {f : DecodedFieldbusFrame}

theorem mem_demo {entry : Sigma fun _ : NodeId => NodeMatcher} :
    entry ∈ (demoManifest order).nodes.entries ↔ entry = ⟨nPlc, .profinetFrame 0x0002 0⟩ ∨
      entry = ⟨nFanuc, .fanucPose⟩ ∨ entry = ⟨nAmr, .ros2Port amrPort⟩ := by
  have entries : nodes.entries = [⟨nPlc, .profinetFrame 0x0002 0⟩, ⟨nFanuc, .fanucPose⟩,
      ⟨nAmr, .ros2Port amrPort⟩] := rfl
  have perm := order.nodes_perm nodes.entries
  show entry ∈ order.nodes nodes.entries ↔ _
  rw [perm.mem_iff, entries]
  simp

theorem claim_iff {node : NodeId} {level : Option Bool} :
    (∃ entry ∈ (demoManifest order).nodes.entries, entry.1 = node ∧
      entry.2.claim f = some level) ↔ trackedNode f = some (node, level) := by
  have shift : ∀ byte : UInt8, byte >>> 0 = byte := fun byte => UInt8.shiftRight_zero
  simp only [mem_demo, or_and_right, exists_or, exists_eq_left]
  cases proto : f.proto with
  | profinetIrt frameId interlockBit rawStatusByte =>
      simp only [NodeMatcher.claim, trackedNode, proto, shift, reduceCtorEq, and_false, or_false]
      by_cases here : frameId = 0x0002
      · simp [here]
      · simp [here, Ne.symm here]
  | ros2Udp topicPort payloadLen =>
      simp only [NodeMatcher.claim, trackedNode, proto, reduceCtorEq, and_false, false_or]
      by_cases here : topicPort = amrPort
      · simp [here]
      · simp [here, Ne.symm here]
  | fanucUdp x y z => simp [NodeMatcher.claim, trackedNode, proto]
  | s7commArrival port => simp [NodeMatcher.claim, trackedNode, proto]

theorem assign_demo : (demoManifest order).assign f = trackedNode f := by
  cases assigned : (demoManifest order).assign f with
  | none =>
      cases tracked : trackedNode f with
      | none => rfl
      | some found =>
          obtain ⟨node, level⟩ := found
          obtain ⟨entry, member, -, claimed⟩ := (@claim_iff order _ _ _).mpr tracked
          have unclaimed := List.findSome?_eq_none_iff.mp assigned entry member
          rw [claimed] at unclaimed
          cases unclaimed
  | some found =>
      obtain ⟨entry, member, claims⟩ := List.exists_of_findSome?_eq_some assigned
      obtain ⟨level, claimed, rfl⟩ := Option.map_eq_some_iff.mp claims
      exact (claim_iff.mp ⟨entry, member, rfl, claimed⟩).symm

theorem classify_demo (profile : Profile) (order : IterationOrder) (f : DecodedFieldbusFrame) :
    (demoManifest order).classify profile f = .ok ((demoManifest order).assign f) := by
  refine classifyEntries_ok _ fun entry member => matchesFrame_of_lt profile ?_ f
  intro frameId bitIndex is
  rcases mem_demo.mp member with rfl | rfl | rfl
  · obtain ⟨-, rfl⟩ := NodeMatcher.profinetFrame.inj is
    decide
  · cases is
  · cases is

end

/-! ## The log -/

def loggedEvent (t : StateTransition) : TraceEvent :=
  { seq := t.seq, node := t.node, tsNs := t.tsNs, offsetFromTripNs := 0, interlock := t.interlock }

def windowEvent (tripTs : UInt64) (t : StateTransition) : TraceEvent :=
  { loggedEvent t with offsetFromTripNs := t.tsNs.toInt64 - tripTs.toInt64 }

/-- The transitions have the numbers of their places, and the times of a capture. -/
structure Numbered (history : History) : Prop where
  seq : ∀ (i : Nat) (t : StateTransition), history.reverse[i]? = some t → t.seq = UInt64.ofNat i
  early : ∀ t ∈ history, t.tsNs.toNat < 2 ^ 62

section
variable {profile : Profile} {history : History} {t : StateTransition}

theorem numbered_nil : Numbered [] where
  seq i t at_ := by simp at at_
  early t member := absurd member List.not_mem_nil

theorem Numbered.cons (numbered : Numbered history) (seq : t.seq = UInt64.ofNat history.length)
    (early : t.tsNs.toNat < 2 ^ 62) : Numbered (t :: history) where
  seq i u at_ := by
    rw [List.reverse_cons, List.getElem?_append, List.length_reverse] at at_
    split at at_
    · exact numbered.seq i u at_
    · rename_i last
      rw [List.getElem?_singleton] at at_
      split at at_
      · obtain rfl := Option.some.inj at_
        rw [seq]
        congr 1
        omega
      · cases at_
  early := List.forall_mem_cons.mpr ⟨early, numbered.early⟩

theorem Numbered.of_cons (numbered : Numbered (t :: history)) : Numbered history where
  seq i u at_ := by
    refine numbered.seq i u ?_
    rw [List.reverse_cons, List.getElem?_append_left (List.getElem?_eq_some_iff.mp at_).1]
    exact at_
  early u member := numbered.early u (List.mem_cons_of_mem _ member)

theorem Numbered.toNat_seq (numbered : Numbered history) (few : history.length < 2 ^ 64) {i : Nat}
    (at_ : history.reverse[i]? = some t) : t.seq.toNat = i := by
  have inside := (List.getElem?_eq_some_iff.mp at_).1
  rw [List.length_reverse] at inside
  rw [numbered.seq i t at_, UInt64.toNat_ofNat']
  exact Nat.mod_eq_of_lt (by omega)

theorem Numbered.seq_ne (numbered : Numbered (t :: history)) (few : (t :: history).length < 2 ^ 64)
    {u : StateTransition} (earlier : u ∈ history) : u.seq ≠ t.seq := by
  obtain ⟨i, at_⟩ := List.mem_iff_getElem?.mp (List.mem_reverse.mpr earlier)
  have inside := (List.getElem?_eq_some_iff.mp at_).1
  have first : (t :: history).reverse[i]? = some u := by
    rw [List.reverse_cons, List.getElem?_append_left inside, at_]
  have last : (t :: history).reverse[history.length]? = some t := by
    rw [List.reverse_cons, List.getElem?_append_right (by rw [List.length_reverse]),
      List.length_reverse, Nat.sub_self, List.getElem?_cons_zero]
  rw [List.length_reverse] at inside
  intro same
  have number := numbered.toNat_seq few first
  rw [same, numbered.toNat_seq few last] at number
  omega

theorem pushEvent_eq (order : IterationOrder) (history : History) (f : DecodedFieldbusFrame) :
    pushEvent (history.reverse.map loggedEvent) f =
      ((demoManifest order).record history f).1.reverse.map loggedEvent := by
  unfold pushEvent DependencyManifest.record
  rw [assign_demo]
  cases trackedNode f with
  | none => rfl
  | some found =>
      simp only [List.reverse_cons, List.map_append, List.length_map, List.length_reverse]
      rfl

theorem relativeTo_ok (profile : Profile) (numbered : Numbered history) {tripTs : UInt64}
    (early : tripTs.toNat < 2 ^ 62) :
    (history.reverse.map loggedEvent).mapM (relativeTo profile tripTs) =
      .ok (history.reverse.map (windowEvent tripTs)) := by
  have each : ∀ e ∈ history.reverse.map loggedEvent, relativeTo profile tripTs e =
      .ok { e with offsetFromTripNs := e.tsNs.toInt64 - tripTs.toInt64 } := by
    intro e member
    obtain ⟨t, recorded, rfl⟩ := List.mem_map.mp member
    have small := numbered.early t (List.mem_reverse.mp recorded)
    unfold relativeTo
    rw [show (loggedEvent t).tsNs = t.tsNs from rfl,
      (@subI64_of_small profile t.tsNs tripTs (by omega) (by omega)).1]
    rfl
  rw [mapM_ok each, List.map_map]
  rfl

theorem traceOf_log (profile : Profile) (numbered : Numbered (t :: history))
    {analysis : TripAnalysis} (trip : analysis.tripEvent = t) :
    DemoRun.traceOf profile (history.reverse.map loggedEvent) analysis =
      .ok (.build "APPL-DEMO-01" analysis ((t :: history).reverse.map (windowEvent t.tsNs))
        "SF-ENTRY-GATE" 50000000) := by
  have early := numbered.early t List.mem_cons_self
  have before : Numbered history := numbered.of_cons
  have last : tripEventToTrace profile t t.tsNs = .ok (windowEvent t.tsNs t) := by
    rw [tripEventToTrace, (@subI64_of_small profile t.tsNs t.tsNs (by omega) (by omega)).1]
    rfl
  rw [DemoRun.traceOf, trip, relativeTo_ok profile before early, last, List.reverse_cons,
    List.map_append]
  rfl

theorem eventOf_window {tripTs : UInt64} (early : t.tsNs.toNat < 2 ^ 62)
    (tripEarly : tripTs.toNat < 2 ^ 62) : EventOf tripTs (windowEvent tripTs t) t where
  seq := rfl
  node := rfl
  tsNs := rfl
  interlock := rfl
  offset := (@subI64_of_small .release t.tsNs tripTs (by omega) (by omega)).2

theorem selfContained_window {manifest : DependencyManifest} {tripTs : UInt64} {a f : String}
    {budgetNs : UInt64} : (CausalTrace.build a (attribution manifest ((t :: history).take 10000) t)
      ((t :: history).reverse.map (windowEvent tripTs)) f budgetNs).SelfContained := by
  intro listed member
  obtain ⟨c, reported, rfl⟩ := List.mem_map.mp member
  have inside : t ∈ (t :: history).take 10000 := List.mem_cons_self
  obtain ⟨⟨nearer, chain⟩, span, -⟩ := attribution_sound inside c reported
  obtain ⟨-, into, from_⟩ := chain.declared _ List.mem_cons_self
  obtain ⟨effect, trigger⟩ := chain.recent _ List.mem_cons_self
  -- The window of the engine is the newest part of the log.
  have logged : ∀ u ∈ (t :: history).take 10000,
      windowEvent tripTs u ∈ (t :: history).reverse.map (windowEvent tripTs) :=
    fun u recent => List.mem_map_of_mem (List.mem_reverse.mpr (List.mem_of_mem_take recent))
  exact ⟨_, logged _ trigger, _, logged _ effect, rfl, from_.symm, rfl, into.symm, span⟩

theorem window_mirrors {manifest : DependencyManifest} (numbered : Numbered (t :: history))
    (few : (t :: history).length < 2 ^ 64) :
    WindowMirrors (t :: history).reverse (attribution manifest ((t :: history).take 10000) t)
      (.build "APPL-DEMO-01" (attribution manifest ((t :: history).take 10000) t)
        ((t :: history).reverse.map (windowEvent t.tsNs)) "SF-ENTRY-GATE" 50000000) where
  catalysts := rfl
  history := by
    refine ⟨history.reverse, ?_, ?_⟩
    · rw [List.reverse_cons]
      exact List.prefix_rfl
    · rw [← List.reverse_cons]
      refine List.forall₂_map_left_iff.mpr (List.forall₂_same.mpr fun u member => ?_)
      exact eventOf_window (numbered.early u (List.mem_reverse.mp member))
        (numbered.early t List.mem_cons_self)
  numbered := by
    intro i e at_
    replace at_ : ((t :: history).reverse.map (windowEvent t.tsNs))[i]? = some e := at_
    rw [List.getElem?_map] at at_
    obtain ⟨u, here, rfl⟩ := Option.map_eq_some_iff.mp at_
    exact numbered.toNat_seq few here
  tripOnce := by
    refine ⟨history.reverse.map (windowEvent t.tsNs), windowEvent t.tsNs t, ?_, rfl, ?_⟩
    · show List.map _ _ = _
      rw [List.reverse_cons, List.map_append]
      rfl
    · intro e member
      obtain ⟨u, before, rfl⟩ := List.mem_map.mp member
      exact numbered.seq_ne few (List.mem_reverse.mp before)
  contained := selfContained_window

end

/-! ## The engine -/

section
variable {profile : Profile} {order : IterationOrder} {history : History} {CAP : Nat}
  {s : CausalGraphObserver CAP}

theorem feed_demo (profile : Profile) (refines : Refines s (demoManifest order) history)
    (few : history.length + 1 < 2 ^ 64) (packet : Packet) :
    ∃ after, s.feed profile packet = .ok (after,
        ((demoManifest order).capture history packet).2.map (attribution (demoManifest order)
          (((demoManifest order).capture history packet).1.take CAP))) ∧
      Refines after (demoManifest order) ((demoManifest order).capture history packet).1 := by
  unfold CausalGraphObserver.feed DependencyManifest.capture
  rcases parseFrame_cases packet.1 packet.2 with ⟨proto, parsed⟩ | ⟨error, parsed⟩
  · rw [parsed]
    exact observe_ok refines (new_indexed _ _ _) _ (classify_demo profile order _) fun _ =>
      refines.counts profile few
  · rw [parsed]
    exact ⟨s, rfl, refines⟩

theorem recorded_eq (profile : Profile) (positive : 0 < CAP) {packets : List Packet}
    (refines : Refines s (demoManifest order) history)
    (few : history.length + packets.length < 2 ^ 64) :
    history.reverse ++ s.recorded profile packets =
      (historyOf (demoManifest order).capture history packets).reverse := by
  induction packets generalizing s history with
  | nil => exact List.append_nil _
  | cons packet packets ih =>
      rw [List.length_cons] at few
      obtain ⟨after, fed, refines'⟩ := feed_demo profile refines (by omega) packet
      rw [CausalGraphObserver.recorded, historyOf, List.foldl_cons, ← historyOf]
      simp only [fed]
      rcases capture_cases (demoManifest order) history packet with same | ⟨t, -, -, pushed, -⟩
      · rw [same] at refines' ⊢
        rw [if_pos (refines'.seq.trans refines.seq.symm), List.nil_append]
        exact ih refines' (by omega)
      · rw [pushed] at refines' ⊢
        have counted : ¬ after.seq = s.seq := by
          rw [refines'.seq, refines.seq, List.length_cons, UInt64.ofNat_add]
          simp
        have newest : after.ring.iterRev = .ok t :: (history.take (CAP - 1)).map .ok := by
          rw [iterRev_ok refines'.ring, List.take_cons positive]
          rfl
        rw [if_neg counted, newest, ← List.append_assoc, ← List.reverse_cons]
        exact ih refines' (by rw [List.length_cons]; omega)

end

/-! ## The loop -/

section
variable {JsonError : Type} {profile : Profile} {order : IterationOrder}
  {toJson : CausalTrace → Except JsonError String} {history : History} {st : DemoRun}
  {analyses : List TripAnalysis} {rows : List TraceRow}

structure Mirrored (toJson : CausalTrace → Except JsonError String) (order : IterationOrder)
    (st : DemoRun) (history : History) (analyses : List TripAnalysis) (rows : List TraceRow) :
    Prop where
  refines : Refines st.engine (demoManifest order) history
  log : st.eventLog = history.reverse.map loggedEvent
  numbered : Numbered history
  trips : st.trips = analyses.length
  persisted : List.Forall₂ (DemoRow toJson history.reverse) analyses rows
  holds : WriteOnce.Holds TraceRow.orderKey st.sink.rows rows

def Serializing {τ : Type} (holds : τ → Prop) : Except (Stop (DemoError JsonError)) τ → Prop
  | .ok state => holds state
  | .error (.err (.json _)) => True
  | .error _ => False

theorem Serializing.bind {τ υ : Type} {holds : τ → Prop} {holds' : υ → Prop}
    {x : Except (Stop (DemoError JsonError)) τ} {f : τ → Except (Stop (DemoError JsonError)) υ}
    (ends : Serializing holds x) (next : ∀ state, holds state → Serializing holds' (f state)) :
    Serializing holds' (x >>= f) := by
  cases x with
  | ok state => exact next state ends
  | error stop =>
      cases stop with
      | fault fault => exact ends
      | err error => cases error <;> exact ends

theorem WindowMirrors.mono {recorded recorded' : List StateTransition} {analysis : TripAnalysis}
    {trace : CausalTrace} (longer : recorded <+: recorded')
    (mirrors : WindowMirrors recorded analysis trace) : WindowMirrors recorded' analysis trace := by
  obtain ⟨catalysts, ⟨before, inside, same⟩, numbered, tripOnce, contained⟩ := mirrors
  exact ⟨catalysts, ⟨before, inside.trans longer, same⟩, numbered, tripOnce, contained⟩

theorem DemoRow.cons {analysis : TripAnalysis} {row : TraceRow} {t : StateTransition}
    (filed : DemoRow toJson history.reverse analysis row) :
    DemoRow toJson (t :: history).reverse analysis row := by
  obtain ⟨trace, filed⟩ := filed
  rw [List.reverse_cons]
  exact ⟨trace, { filed with mirrors := WindowMirrors.mono (List.prefix_append _ _) filed.mirrors }⟩

theorem demo_keys {recorded : List StateTransition}
    (persisted : List.Forall₂ (DemoRow toJson recorded) analyses rows) :
    rows.map TraceRow.orderKey = analyses.map demoKey := by
  induction persisted with
  | nil => rfl
  | cons first _ ih =>
      obtain ⟨trace, filed⟩ := first
      rw [List.map_cons, List.map_cons, ih, filed.key]

theorem demo_persist_inv {run : DemoRun} {analysis : TripAnalysis}
    (done : st.persist profile toJson analysis = .ok run) :
    ∃ trace row sink, DemoRun.traceOf profile st.eventLog analysis = .ok trace ∧
      TraceRow.fromTrace toJson trace = .ok row ∧
      st.sink.put row = ((.ok () : Except (StorageError JsonError) Unit), sink) ∧
      run = { st with
        trips := st.trips + 1
        attributed := st.attributed + trace.rootCatalyst.isSome.toNat
        sink } := by
  unfold DemoRun.persist at done
  obtain ⟨trace, built, done⟩ := bind_ok done
  obtain ⟨row, sink, stored, put, is⟩ := filed_inv done
  refine ⟨trace, row, sink, orFault_ok built, stored, ?_⟩
  cases root : trace.rootCatalyst.isSome with
  | true =>
      simp only [root, if_true] at put is
      exact ⟨put, is⟩
  | false =>
      simp only [root, Bool.false_eq_true, if_false] at put is
      exact ⟨put, is⟩

variable (toJson) in
theorem demo_persist {t : StateTransition} (numbered : Numbered (t :: history))
    (few : (t :: history).length < 2 ^ 64) (log : st.eventLog = history.reverse.map loggedEvent)
    (holds : WriteOnce.Holds TraceRow.orderKey st.sink.rows rows)
    (new : demoKey (attribution (demoManifest order) ((t :: history).take 10000) t) ∉
      rows.map TraceRow.orderKey) :
    Serializing (fun run => ∃ row, run.engine = st.engine ∧ run.eventLog = st.eventLog ∧
        run.trips = st.trips + 1 ∧ WriteOnce.Holds TraceRow.orderKey run.sink.rows (rows ++ [row]) ∧
        DemoRow toJson (t :: history).reverse
          (attribution (demoManifest order) ((t :: history).take 10000) t) row)
      (st.persist profile toJson
        (attribution (demoManifest order) ((t :: history).take 10000) t)) := by
  have built := @traceOf_log history t profile numbered
    (attribution (demoManifest order) ((t :: history).take 10000) t) rfl
  have mirrors := @window_mirrors history t (demoManifest order) numbered few
  generalize attribution (demoManifest order) ((t :: history).take 10000) t = analysis at *
  generalize window : (t :: history).reverse.map (windowEvent t.tsNs) = events at *
  rw [← log] at built
  unfold DemoRun.persist
  simp only [built, orFault, bind, Except.bind]
  cases stored : TraceRow.fromTrace toJson
      (.build "APPL-DEMO-01" analysis events "SF-ENTRY-GATE" 50000000) with
  | error error => exact trivial
  | ok row =>
      have key : row.orderKey = demoKey analysis := fromTrace_key stored
      rw [← key] at new
      have kept := @put_new JsonError _ _ holds row new
      have filed : DemoRow toJson (t :: history).reverse analysis row :=
        ⟨_, rfl, mirrors, stored, fromTrace_evidence stored, key⟩
      cases root : (CausalTrace.build "APPL-DEMO-01" analysis events "SF-ENTRY-GATE"
          50000000).rootCatalyst.isSome with
      | true =>
          simp only [if_true, kept]
          exact ⟨row, rfl, rfl, rfl, holds.insert new, filed⟩
      | false =>
          simp only [Bool.false_eq_true, if_false, kept]
          exact ⟨row, rfl, rfl, rfl, holds.insert new, filed⟩

def logAfter (log : List TraceEvent) (packet : Packet) : List TraceEvent :=
  match parseFrame packet.1 packet.2 with
  | .ok f => pushEvent log f
  | .error _ => log

theorem logAfter_capture (order : IterationOrder) (history : History) (packet : Packet) :
    logAfter (history.reverse.map loggedEvent) packet =
      ((demoManifest order).capture history packet).1.reverse.map loggedEvent := by
  unfold logAfter DependencyManifest.capture
  rcases parseFrame_cases packet.1 packet.2 with ⟨proto, parsed⟩ | ⟨error, parsed⟩
  · rw [parsed]
    exact pushEvent_eq order history _
  · rw [parsed]

variable (toJson) in
theorem demo_step {packet : Packet} {after : CausalGraphObserver 10000}
    {result : Option TripAnalysis} (fed : st.engine.feed profile packet = .ok (after, result)) :
    ∃ mid : DemoRun, mid.engine = after ∧ mid.sink = st.sink ∧ mid.eventLog = st.eventLog ∧
      mid.trips = st.trips ∧ st.step profile toJson packet =
        (match result with
          | none => .ok mid
          | some analysis => mid.persist profile toJson analysis) >>=
          fun run => .ok { run with eventLog := logAfter run.eventLog packet } := by
  unfold CausalGraphObserver.feed at fed
  unfold DemoRun.step tryParse logAfter
  rcases parseFrame_cases packet.1 packet.2 with ⟨proto, parsed⟩ | ⟨error, parsed⟩
  · simp only [parsed] at fed ⊢
    refine ⟨{ st with engine := after, frames := st.frames + 1, parsed := st.parsed + 1 }, rfl, rfl,
      rfl, rfl, ?_⟩
    simp only [bind, Except.bind, fed, orFault, pure, Except.pure]
    cases result <;> rfl
  · simp only [parsed] at fed ⊢
    obtain ⟨rfl, rfl⟩ := Prod.mk.inj (Except.ok.inj fed)
    exact ⟨{ st with frames := st.frames + 1, skippedUnparseable := st.skippedUnparseable + 1 },
      rfl, rfl, rfl, rfl, rfl⟩

theorem step_mirrors (mirrored : Mirrored toJson order st history analyses rows) {packet : Packet}
    (few : history.length + 1 < 2 ^ 64) (early : packet.1.toNat < 2 ^ 62)
    {after : CausalGraphObserver 10000} {result : Option TripAnalysis}
    (fed : st.engine.feed profile packet = .ok (after, result))
    (new : ((analyses ++ result.toList).map demoKey).Nodup) :
    Serializing (fun run => run.engine = after ∧ ∃ rows',
        Mirrored toJson order run ((demoManifest order).capture history packet).1
          (analyses ++ result.toList) rows') (st.step profile toJson packet) := by
  obtain ⟨refines, log, numbered, trips, persisted, holds⟩ := mirrored
  obtain ⟨after', fed', refines'⟩ := feed_demo profile refines few packet
  obtain ⟨rfl, rfl⟩ := Prod.mk.inj (Except.ok.inj (fed.symm.trans fed'))
  obtain ⟨mid, rfl, sink, midLog, midTrips, stepped⟩ := demo_step toJson fed
  have logged := logAfter_capture order history packet
  rw [← log, ← midLog] at logged
  rw [stepped]
  rw [← sink] at holds
  rcases capture_cases (demoManifest order) history packet with same | ⟨t, seq, ts, pushed, trip⟩
  · rw [same] at refines' logged ⊢
    rw [Option.map_none, Option.toList_none, List.append_nil]
    exact ⟨rfl, rows, refines', logged, numbered, midTrips.trans trips, persisted, holds⟩
  · rw [pushed] at refines' logged new ⊢
    rw [← ts] at early
    have numbered' := numbered.cons seq early
    have kept := persisted.imp fun _ _ => @DemoRow.cons _ _ _ _ _ t
    cases tripped : ((demoManifest order).capture history packet).2 with
    | none =>
        rw [Option.map_none, Option.toList_none, List.append_nil]
        exact ⟨rfl, rows, refines', logged, numbered', midTrips.trans trips, kept, holds⟩
    | some found =>
        obtain rfl := trip found tripped
        rw [tripped, Option.map_some, Option.toList_some, List.map_append,
          List.map_singleton] at new
        have absent := (List.nodup_append.mp new).2.2
        rw [Option.map_some, Option.toList_some]
        refine (@demo_persist _ profile order toJson history mid rows found numbered' few
          (midLog.trans log) holds ?_).bind ?_
        · rw [demo_keys persisted]
          exact fun member => absent _ member _ (List.mem_singleton_self _) rfl
        · rintro run ⟨row, engine, runLog, runTrips, stored, filed⟩
          refine ⟨engine, rows ++ [row], ?_, ?_, numbered', ?_, ?_, stored⟩
          · rw [engine]
            exact refines'
          · rw [runLog]
            exact logged
          · rw [runTrips, midTrips, trips, List.length_append]
            rfl
          · exact List.rel_append kept (.cons filed .nil)

theorem loop_mirrors (mirrored : Mirrored toJson order st history analyses rows)
    {packets : List Packet} (few : history.length + packets.length < 2 ^ 64)
    (early : ∀ packet ∈ packets, packet.1.toNat < 2 ^ 62)
    (distinct : ((analyses ++ st.engine.reports profile packets).map demoKey).Nodup) :
    Serializing (fun run => ∃ rows', Mirrored toJson order run
        (historyOf (demoManifest order).capture history packets)
        (analyses ++ st.engine.reports profile packets) rows')
      (packets.foldlM (DemoRun.step profile toJson) st) := by
  induction packets generalizing st history analyses rows with
  | nil =>
      rw [CausalGraphObserver.reports, List.append_nil]
      exact ⟨rows, mirrored⟩
  | cons packet packets ih =>
      rw [List.length_cons] at few
      obtain ⟨after, fed, -⟩ := feed_demo profile mirrored.refines (by omega) packet
      rw [List.foldlM_cons, historyOf, List.foldl_cons, ← historyOf]
      rw [CausalGraphObserver.reports] at distinct ⊢
      simp only [fed] at distinct ⊢
      rw [← List.append_assoc] at distinct ⊢
      have new := distinct
      rw [List.map_append] at new
      have stepped := step_mirrors mirrored (by omega) (early packet List.mem_cons_self) fed
        (List.nodup_append.mp new).1
      refine stepped.bind ?_
      rintro st' ⟨rfl, rows', mirrored'⟩
      have more := length_capture (demoManifest order) history packet
      exact ih mirrored' (by omega) (fun p later => early p (List.mem_cons_of_mem _ later)) distinct

end

/-! ## The run -/

theorem demoRows_early {JsonError : Type} {toJson : CausalTrace → Except JsonError String}
    {history : History} {analyses : List TripAnalysis} {rows : List TraceRow}
    (numbered : Numbered history)
    (persisted : List.Forall₂ (DemoRow toJson history.reverse) analyses rows) :
    ∀ row ∈ rows, row.tripTsNs.toNat < 2 ^ 62 := by
  induction persisted with
  | nil => exact fun _ member => absurd member List.not_mem_nil
  | @cons analysis row _ _ first _ ih =>
      obtain ⟨trace, filed⟩ := first
      obtain ⟨before, inside, -⟩ := filed.mirrors.history
      have trip : analysis.tripEvent ∈ history.reverse :=
        inside.subset (List.mem_append_right _ (List.mem_singleton_self _))
      have time : row.tripTsNs = analysis.tripEvent.tsNs := congrArg OrderKey.tsNs filed.key
      refine List.forall_mem_cons.mpr ⟨?_, ih⟩
      rw [time]
      exact numbered.early _ (List.mem_reverse.mp trip)

section
variable {profile : Profile} {fmt : PcapFormat} {bytes : List UInt8}
  {frames : List (Packet × Bool)} {ending : Front} {read truncated : Nat}

theorem eager_opened {e : PcapReplaySource} (opened : PcapReplaySource.fromBytes bytes = .ok e) :
    ∃ fmt, magicOf (wordAt false bytes 0) = .classic fmt ∧ EagerAt e fmt (bytes.drop 24) 0 0 ∧
      e.maxCapMinusOrig = 0 := by
  rw [fromBytes_eq] at opened
  split at opened
  · cases opened
  · rename_i long
    cases magic : magicOf (wordAt false bytes 0) with
    | pcapng | other =>
        simp only [magic] at opened
        cases opened
    | classic fmt =>
        simp only [magic] at opened
        obtain rfl := Except.ok.inj opened
        exact ⟨fmt, rfl, ⟨Nat.le_of_not_lt long, rfl, rfl, rfl, rfl⟩, rfl⟩

theorem eager_opens (long : 24 ≤ bytes.length)
    (magic : magicOf (wordAt false bytes 0) = .classic fmt) :
    ∃ e, PcapReplaySource.fromBytes bytes = .ok e ∧ EagerAt e fmt (bytes.drop 24) 0 0 := by
  rw [fromBytes_eq, if_neg (Nat.not_lt.mpr long)]
  simp only [magic]
  exact ⟨_, rfl, long, rfl, rfl, rfl, rfl⟩

theorem eager_stops {e : PcapReplaySource} (last : (front fmt bytes).isRecord = false)
    (at_ : EagerAt e fmt bytes read truncated) : e.nextFrame profile = .ok (none, e) ∨
      ∃ error, e.nextFrame profile = .error (.err error) := by
  have step := eager_step profile at_
  cases is : front fmt bytes with
  | record =>
      rw [is] at last
      cases last
  | finished =>
      rw [is] at step
      exact Or.inl step
  | cutHeader | cutBody | tooLong =>
      rw [is] at step
      exact Or.inr ⟨_, step⟩

variable (profile) in
theorem eager_frames {e : PcapReplaySource} (reads : Reads fmt bytes frames ending)
    (at_ : EagerAt e fmt bytes read truncated) (fuel : Nat) (enough : frames.length < fuel) :
    (drain (PcapReplaySource.nextFrame profile) fuel e).1.map Prod.fst = frames.map Prod.fst := by
  induction reads generalizing e read truncated fuel with
  | stop last =>
      obtain ⟨fuel, rfl⟩ : ∃ n, fuel = n + 1 := ⟨fuel - 1, by omega⟩
      rw [drain]
      rcases @eager_stops profile _ _ _ _ _ last at_ with done | ⟨error, done⟩
      · rw [done]
        rfl
      · rw [done]
        rfl
  | @next bytes rest packet cut frames ending is reads ih =>
      obtain ⟨fuel, rfl⟩ : ∃ n, fuel = n + 1 := ⟨fuel - 1, by omega⟩
      have step := eager_step profile at_
      rw [is] at step
      obtain ⟨after, done, at'⟩ := step
      rw [List.length_cons] at enough
      simp only [drain, done]
      exact congrArg (packet :: ·) (ih at' fuel (by omega))

variable (profile) in
theorem eachEagerFrame_eq {τ ε : Type} (body : τ → Packet → Except (Stop ε) τ)
    {e : PcapReplaySource} (reads : Reads fmt bytes frames ending)
    (at_ : EagerAt e fmt bytes read truncated) (fuel : Nat) (enough : frames.length < fuel)
    (state : τ) : ∃ after, eachEagerFrame profile body fuel state e =
      ((frames.map Prod.fst).foldlM body state >>= fun state => .ok (state, after)) := by
  induction reads generalizing e read truncated fuel state with
  | stop last =>
      obtain ⟨fuel, rfl⟩ : ∃ n, fuel = n + 1 := ⟨fuel - 1, by omega⟩
      refine ⟨e, ?_⟩
      rw [eachEagerFrame]
      rcases @eager_stops profile _ _ _ _ _ last at_ with done | ⟨error, done⟩
      · rw [done]
        rfl
      · rw [done]
        rfl
  | @next bytes rest packet cut frames ending is reads ih =>
      obtain ⟨fuel, rfl⟩ : ∃ n, fuel = n + 1 := ⟨fuel - 1, by omega⟩
      have step := eager_step profile at_
      rw [is] at step
      obtain ⟨next, done, at'⟩ := step
      rw [List.length_cons] at enough
      simp only [eachEagerFrame, done, List.map_cons, List.foldlM_cons, bind_assoc]
      cases body state packet with
      | ok state =>
          obtain ⟨after, looped⟩ := ih at' fuel (by omega) state
          exact ⟨after, looped⟩
      | error stop => exact ⟨next, rfl⟩

end

theorem demo_window_mirrors (profile : Profile) (order : IterationOrder) {JsonError : Type}
    (toJson : CausalTrace → Except JsonError String) (file : CaptureFile) {src : PcapReplaySource}
    (opened : PcapReplaySource.fromBytes file.content.items = .ok src) {fuel : Nat}
    (enough : file.content.items.length < fuel) :
    let packets := (drain (PcapReplaySource.nextFrame profile) fuel src).1.map Prod.fst
    let engine : CausalGraphObserver 10000 := .new (demoManifest order)
    DemoMirrors toJson (engine.recorded profile packets) (engine.reports profile packets)
      (runDemo profile order toJson fuel file) := by
  intro packets engine
  obtain ⟨fmt, -, at_, -⟩ := eager_opened opened
  obtain ⟨frames, ending, reads⟩ := reads_total fmt (file.content.items.drop 24)
  have size := reads_length reads
  rw [List.length_drop] at size
  have fits := file.length_lt
  have drained : packets = frames.map Prod.fst := eager_frames profile reads at_ fuel (by omega)
  have few : ([] : History).length + packets.length < 2 ^ 64 := by
    rw [drained, List.length_map, List.length_nil]
    omega
  have refines : Refines engine (demoManifest order) [] := refines_new (by decide) _
  have distinct : ((engine.reports profile packets).map demoKey).Nodup :=
    reports_nodup (new_indexed _ _ _) refines few fun _ _ same =>
      (formatTraceId_inj (congrArg OrderKey.traceId same)).2.2
  have start : Mirrored toJson order (.new order) [] [] [] :=
    ⟨refines, rfl, numbered_nil, rfl, .nil, WriteOnce.holds_empty⟩
  have looped := loop_mirrors start few
    (fun p member => reads_times reads p (drained ▸ member)) distinct
  obtain ⟨after, run⟩ := eachEagerFrame_eq profile (DemoRun.step profile toJson) reads at_ fuel
    (by omega) (.new order)
  have recorded := recorded_eq profile (by decide) refines few
  rw [List.reverse_nil, List.nil_append] at recorded
  rw [← drained] at run
  rw [recorded, runDemo, opened]
  simp only [wrapError, bind, Except.bind] at run ⊢
  rw [run]
  cases result : packets.foldlM (DemoRun.step profile toJson) (.new order) with
  | error stop =>
      rw [result] at looped
      cases stop with
      | fault fault => exact looped
      | err error => cases error <;> exact looped
  | ok st =>
      rw [result, List.nil_append] at looped
      obtain ⟨rows, -, -, numbered, trips, persisted, holds⟩ := looped
      obtain ⟨all, scanned, perm, -⟩ := range_all holds (demoRows_early numbered persisted)
      simp only [scanned]
      exact ⟨trips, rows, perm, persisted⟩

theorem lateFile_items : Cell.lateFile.content.items = Cell.lateCapture := by
  rw [Cell.lateFile]

theorem demo_reads : Reads ⟨false, false⟩ (Cell.lateCapture.drop 24)
    (Cell.late.map (·, false)) .finished := by
  have high : front ⟨false, false⟩ (Cell.lateCapture.drop 24) =
      .record (1000000, Cell.plcBytes true) false (Cell.lateCapture.drop 57) := by decide +kernel
  have message : front ⟨false, false⟩ (Cell.lateCapture.drop 57) =
      .record (2000000, udpBytes 7400) false (Cell.lateCapture.drop 127) := by decide +kernel
  have pose : front ⟨false, false⟩ (Cell.lateCapture.drop 127) =
      .record (11000000, udpBytes 60008) false (Cell.lateCapture.drop 197) := by decide +kernel
  have low : front ⟨false, false⟩ (Cell.lateCapture.drop 197) =
      .record (13000000, Cell.plcBytes false) false [] := by decide +kernel
  exact .next high (.next message (.next pose (.next low (.stop rfl))))

theorem demo_catalyst : ((CausalGraphObserver.new (demoManifest .declared) :
    CausalGraphObserver 10000).reports .release Cell.late).map (fun analysis =>
      analysis.rankedCatalysts.map fun c => (c.trigger.seq, c.effect.seq, c.observedDtNs)) =
    [[(1, 2, 9000000)]] := by
  decide +kernel

theorem demo_window_mirrors_late : ∃ src,
    PcapReplaySource.fromBytes Cell.lateFile.content.items = .ok src ∧
    let packets := (drain (PcapReplaySource.nextFrame .release) 300 src).1.map Prod.fst
    let engine : CausalGraphObserver 10000 := .new (demoManifest .declared)
    (engine.reports .release packets).map (fun analysis => analysis.rankedCatalysts.map
      fun c => (c.trigger.seq, c.effect.seq, c.observedDtNs)) = [[(1, 2, 9000000)]] ∧
    DemoMirrors (fun _ => (.ok Cell.lateJson : Except Empty String))
      (engine.recorded .release packets) (engine.reports .release packets)
      (runDemo .release .declared (fun _ => .ok Cell.lateJson) 300 Cell.lateFile) := by
  have long : Cell.lateCapture.length = 230 := by decide +kernel
  have magic : magicOf (wordAt false Cell.lateCapture 0) = .classic ⟨false, false⟩ := by
    decide +kernel
  obtain ⟨src, opened, at_⟩ := eager_opens (by rw [long]; decide) magic
  have few : (Cell.late.map (·, false)).length < 300 := by decide
  have drained := eager_frames .release demo_reads at_ 300 few
  rw [List.map_map, Function.comp_def, List.map_id'] at drained
  have enough : Cell.lateFile.content.items.length < 300 := by
    rw [lateFile_items, long]
    decide
  rw [← lateFile_items] at opened
  refine ⟨src, opened, ?_, ?_⟩
  · rw [drained]
    exact demo_catalyst
  · generalize Cell.lateFile = file at opened enough ⊢
    exact demo_window_mirrors .release .declared _ file opened enough

end Proof
end CausalWorks
