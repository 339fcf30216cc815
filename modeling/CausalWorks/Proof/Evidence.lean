import CausalWorks.ManifestRun
import CausalWorks.Proof.AppendOnly
import CausalWorks.Proof.Cut
import CausalWorks.Proof.Detection
import CausalWorks.Proof.Downstream

/-!
# No evidence is lost

The sequence number of a trip is new in its run, and the id of a trace determines it. So the key of
every row is new, and the store takes them all.
-/

namespace CausalWorks

def TripAnalysis.orderKey (self : TripAnalysis) : OrderKey :=
  { tsNs := self.tripEvent.tsNs
    traceId := formatTraceId "APPL-REPLAY" self.tripEvent.tsNs self.tripEvent.seq }

def Persisted {JsonError : Type} (profile : Profile)
    (toJson : CausalTrace → Except JsonError String) (analysis : TripAnalysis) (row : TraceRow) :
    Prop :=
  ∃ trace, ManifestRun.traceOf profile analysis = .ok trace ∧
    TraceRow.fromTrace toJson trace = .ok row

/-- The sink has one row for each analysis, and a scan of all times finds them in time order. -/
def EvidenceKept {JsonError : Type} (profile : Profile)
    (toJson : CausalTrace → Except JsonError String) (analyses : List TripAnalysis)
    (sink : InMemorySink) : Prop :=
  ∃ rows, List.Forall₂ (Persisted profile toJson) analyses rows ∧ sink.len = rows.length ∧
    ∃ found, sink.range 0 0xffffffffffffffff = .ok found ∧ found.Perm rows ∧
      found.Pairwise fun a b => a.tripTsNs ≤ b.tripTsNs

structure RunKeepsEvidence {JsonError : Type} (profile : Profile)
    (toJson : CausalTrace → Except JsonError String) (analyses : List TripAnalysis)
    (run : Except (Stop (RunError JsonError)) (ManifestRun × StreamingPcapSource)) : Prop where
  distinct : (analyses.map TripAnalysis.orderKey).Nodup
  ends : match run with
    | .ok (state, _) => state.trips = analyses.length ∧
        EvidenceKept profile toJson analyses state.sink
    | .error (.err _) => False
    | .error (.fault fault) => Proof.DevOnly profile fault

def Cell.downCapture : List UInt8 :=
  [0xd4, 0xc3, 0xb2, 0xa1] ++ List.replicate 28 0 ++ [17, 0, 0, 0, 17, 0, 0, 0] ++ plcBytes true ++
    List.replicate 8 0 ++ [17, 0, 0, 0, 17, 0, 0, 0] ++ plcBytes false

def Cell.unattributed (seq : String) : String := String.intercalate "\n"
  ["\x7b", "  \"trace_id\": \"APPL-REPLAY:0:" ++ seq ++ "\",",
    "  \"appliance_id\": \"APPL-REPLAY\",", "  \"trip_ts_ns\": 0,", "  \"root_catalyst\": null,",
    "  \"ranked_catalysts\": [],", "  \"event_sequence\": [", "    \x7b",
    "      \"seq\": " ++ seq ++ ",", "      \"node\": 3,", "      \"ts_ns\": 0,",
    "      \"offset_from_trip_ns\": 0,", "      \"interlock\": false", "    \x7d", "  ],",
    "  \"iso13849\": \x7b", "    \"safety_function_id\": \"SF-FROM-MANIFEST\",",
    "    \"configured_response_budget_ns\": 50000000,", "    \"observed_response_time_ns\": 0,",
    "    \"response_within_budget\": false,", "    \"finding\": \"UnattributedTrip\"", "  \x7d",
    "\x7d"]

def Cell.downJson : String := unattributed "1"

def Cell.record (micros payload : List UInt8) : List UInt8 :=
  let length := [.ofNat payload.length, 0, 0, 0]
  [0, 0, 0, 0] ++ micros ++ [0, 0] ++ length ++ length ++ payload

def Cell.twiceCapture : List UInt8 :=
  [0xd4, 0xc3, 0xb2, 0xa1] ++ List.replicate 20 0 ++ record [0, 0] (plcBytes true) ++
    record [0, 0] (plcBytes false) ++ record [0, 0] (plcBytes true) ++
    record [0, 0] (plcBytes false)

def Cell.twice : List Packet :=
  [(0, plcBytes true), (0, plcBytes false), (0, plcBytes true), (0, plcBytes false)]

def Cell.twiceFile : CaptureFile := ⟨⟨twiceCapture, []⟩, by decide +kernel⟩

def Cell.twiceJson (trace : CausalTrace) : Except Empty String :=
  .ok (unattributed (if trace.traceId = "APPL-REPLAY:0:1" then "1" else "3"))

namespace Proof

/-! ## The id of a trace -/

theorem split_last {α : Type} {c : α} {xs ds xs' ds' : List α} (free : c ∉ ds) (free' : c ∉ ds')
    (same : xs ++ c :: ds = xs' ++ c :: ds') : xs = xs' ∧ ds = ds' := by
  rcases List.append_eq_append_iff.mp same with ⟨middle, rfl, rest⟩ | ⟨middle, rfl, rest⟩
  · cases middle with
    | nil => exact ⟨(List.append_nil _).symm, (List.cons.inj rest).2⟩
    | cons d middle =>
        obtain ⟨-, rfl⟩ := List.cons.inj rest
        exact absurd (List.mem_append_right _ List.mem_cons_self) free
  · cases middle with
    | nil => exact ⟨List.append_nil _, (List.cons.inj rest).2.symm⟩
    | cons d middle =>
        obtain ⟨-, rfl⟩ := List.cons.inj rest
        exact absurd (List.mem_append_right _ List.mem_cons_self) free'

theorem colon_not_digit (n : Nat) : ':' ∉ Nat.toDigits 10 n := fun member =>
  absurd (Nat.isDigit_of_mem_toDigits (by decide) (by decide) member) (by decide)

theorem toDigits_inj {m n : Nat} (same : Nat.toDigits 10 m = Nat.toDigits 10 n) : m = n := by
  rw [← @Nat.ofDigitChars_ten_toDigits m, same, Nat.ofDigitChars_ten_toDigits]

theorem formatTraceId_inj {a a' : String} {ts ts' seq seq' : UInt64}
    (same : formatTraceId a ts seq = formatTraceId a' ts' seq') :
    a = a' ∧ ts = ts' ∧ seq = seq' := by
  have lists := congrArg String.toList same
  simp only [formatTraceId, Nat.toString_eq_ofList_toDigits, String.toList_append,
    String.toList_ofList] at lists
  have colon : ":".toList = [':'] := rfl
  simp only [colon, List.append_assoc, List.singleton_append] at lists
  rw [← List.append_assoc, ← List.append_assoc] at lists
  -- The numbers hold no colon, so the last two colons separate them from whatever comes first.
  obtain ⟨front, number⟩ := split_last (colon_not_digit _) (colon_not_digit _) lists
  obtain ⟨appliance, time⟩ := split_last (colon_not_digit _) (colon_not_digit _) front
  exact ⟨String.toList_inj.mp appliance, UInt64.toNat_inj.mp (toDigits_inj time),
    UInt64.toNat_inj.mp (toDigits_inj number)⟩

/-! ## The trips of a run -/

section
variable {profile : Profile} {manifest : DependencyManifest} {history : History} {CAP : Nat}

theorem capture_cases (manifest : DependencyManifest) (history : History) (packet : Packet) :
    manifest.capture history packet = (history, none) ∨
    ∃ t, t.seq = UInt64.ofNat history.length ∧ t.tsNs = packet.1 ∧
      (manifest.capture history packet).1 = t :: history ∧
      ∀ trip ∈ (manifest.capture history packet).2, trip = t := by
  rw [capture_eq]
  cases reading manifest packet with
  | none => exact Or.inl rfl
  | some found =>
      refine Or.inr ⟨_, rfl, rfl, rfl, ?_⟩
      intro trip tripped
      simp only at tripped
      split at tripped
      · exact (Option.some.inj tripped).symm
      · cases tripped

theorem length_capture (manifest : DependencyManifest) (history : History) (packet : Packet) :
    (manifest.capture history packet).1.length ≤ history.length + 1 := by
  rcases capture_cases manifest history packet with same | ⟨t, -, -, pushed, -⟩
  · rw [same]
    exact Nat.le_succ _
  · rw [pushed]
    exact Nat.le_refl _

theorem reports_numbered {s : CausalGraphObserver CAP} (indexed : manifest.Indexed)
    {packets : List Packet} (refines : Refines s manifest history)
    (few : history.length + packets.length < 2 ^ 64) :
    (s.reports profile packets).Pairwise (fun a b => a.tripEvent.seq < b.tripEvent.seq) ∧
      ∀ a ∈ s.reports profile packets, history.length ≤ a.tripEvent.seq.toNat ∧
        ∃ packet ∈ packets, a.tripEvent.tsNs = packet.1 := by
  induction packets generalizing s history with
  | nil => exact ⟨List.Pairwise.nil, fun _ member => absurd member List.not_mem_nil⟩
  | cons packet packets ih =>
      rw [List.length_cons] at few
      rw [CausalGraphObserver.reports]
      rcases feed_cases profile refines indexed packet with ⟨after, fed, refines'⟩ |
        ⟨fault, -, fed⟩
      · simp only [fed]
        rcases capture_cases manifest history packet with same | ⟨t, seq, ts, pushed, trips⟩
        · rw [same] at refines' ⊢
          obtain ⟨ordered, later⟩ := @ih history after refines' (by omega)
          refine ⟨ordered, fun a member => ?_⟩
          obtain ⟨low, inside, present, time⟩ := later a member
          exact ⟨low, inside, List.mem_cons_of_mem _ present, time⟩
        · rw [pushed] at refines'
          obtain ⟨ordered, later⟩ := ih refines' (by rw [List.length_cons]; omega)
          -- With fewer than 2 ^ 64 packets the counter has not wrapped.
          have number : t.seq.toNat = history.length := by
            rw [seq]
            exact Nat.mod_eq_of_lt (by omega)
          have now : ∀ a ∈ ((manifest.capture history packet).2.map (attribution manifest
              ((t :: history).take CAP))).toList, a.tripEvent = t := by
            intro a member
            obtain ⟨trip, tripped, rfl⟩ := Option.map_eq_some_iff.mp (Option.mem_toList.mp member)
            exact trips trip tripped
          rw [pushed]
          refine ⟨List.pairwise_append.mpr ⟨?_, ordered, fun a here b there => ?_⟩, ?_⟩
          · cases (manifest.capture history packet).2 with
            | none => exact List.Pairwise.nil
            | some trip => exact List.pairwise_singleton _ _
          · have above := (later b there).1
            rw [List.length_cons] at above
            rw [now a here, UInt64.lt_iff_toNat_lt, number]
            exact above
          · intro a member
            rcases List.mem_append.mp member with here | there
            · rw [now a here]
              exact ⟨number.ge, packet, List.mem_cons_self, ts⟩
            · obtain ⟨above, inside, present, time⟩ := later a there
              rw [List.length_cons] at above
              exact ⟨by omega, inside, List.mem_cons_of_mem _ present, time⟩
      · simp only [fed]
        exact ⟨List.Pairwise.nil, fun _ member => absurd member List.not_mem_nil⟩

theorem reports_nodup {s : CausalGraphObserver CAP} (indexed : manifest.Indexed)
    {packets : List Packet} (refines : Refines s manifest history)
    (few : history.length + packets.length < 2 ^ 64) {κ : Type} {key : TripAnalysis → κ}
    (numbers : ∀ a b, key a = key b → a.tripEvent.seq = b.tripEvent.seq) :
    ((s.reports profile packets).map key).Nodup := by
  refine List.pairwise_map.mpr ((reports_numbered indexed refines few).1.imp ?_)
  intro a b lt same
  rw [numbers a b same] at lt
  exact UInt64.lt_irrefl _ lt

theorem reports_distinct {s : CausalGraphObserver CAP} (indexed : manifest.Indexed)
    {packets : List Packet} (refines : Refines s manifest history)
    (few : history.length + packets.length < 2 ^ 64) :
    ((s.reports profile packets).map TripAnalysis.orderKey).Nodup :=
  reports_nodup indexed refines few fun _ _ same =>
    (formatTraceId_inj (congrArg OrderKey.traceId same)).2.2

end

/-! ## The loop -/

section
variable {JsonError : Type} {profile : Profile} {toJson : CausalTrace → Except JsonError String}
  {manifest : DependencyManifest} {rows : List TraceRow} {analysis : TripAnalysis}

theorem fromTrace_key {trace : CausalTrace} {row : TraceRow}
    (stored : TraceRow.fromTrace toJson trace = .ok row) :
    row.orderKey = ⟨trace.tripTsNs, trace.traceId⟩ := by
  unfold TraceRow.fromTrace at stored
  obtain ⟨json, -, stored⟩ := bind_ok stored
  obtain rfl := Except.ok.inj stored
  rfl

theorem fromTrace_evidence {trace : CausalTrace} {row : TraceRow}
    (stored : TraceRow.fromTrace toJson trace = .ok row) : toJson trace = .ok row.evidenceJson := by
  unfold TraceRow.fromTrace at stored
  obtain ⟨json, written, stored⟩ := bind_ok stored
  obtain rfl := Except.ok.inj stored
  exact written

theorem orFault_ok {ε α : Type} {x : Except Fault α} {a : α}
    (done : (orFault x : Except (Stop ε) α) = .ok a) : x = .ok a := by
  cases x with
  | ok b => exact congrArg Except.ok (Except.ok.inj done)
  | error fault => cases done

theorem filed_inv {σ ε : Type} {trace : CausalTrace} {sink : InMemorySink} {json : JsonError → ε}
    {storage : StorageError JsonError → ε} {keep : InMemorySink → σ} {run : σ}
    (done : (match TraceRow.fromTrace toJson trace with
      | .error error => .error (.err (json error))
      | .ok row =>
        match sink.put row with
        | (.error error, _) => .error (.err (storage error))
        | (.ok (), sink) => .ok (keep sink)) = (.ok run : Except (Stop ε) σ)) :
    ∃ row after, TraceRow.fromTrace toJson trace = .ok row ∧
      sink.put row = ((.ok () : Except (StorageError JsonError) Unit), after) ∧
      run = keep after := by
  cases stored : TraceRow.fromTrace toJson trace with
  | error error =>
      rw [stored] at done
      cases done
  | ok row =>
      simp only [stored] at done
      split at done
      · cases done
      · rename_i after put
        exact ⟨row, after, rfl, put, (Except.ok.inj done).symm⟩

theorem persist_inv {st run : ManifestRun} (done : st.persist profile toJson analysis = .ok run) :
    ∃ trace row sink, ManifestRun.traceOf profile analysis = .ok trace ∧
      TraceRow.fromTrace toJson trace = .ok row ∧
      st.sink.put row = ((.ok () : Except (StorageError JsonError) Unit), sink) ∧
      run = { st with
        trips := st.trips + 1
        attributed := st.attributed + trace.rootCatalyst.isSome.toNat
        sink } := by
  unfold ManifestRun.persist at done
  obtain ⟨trace, built, done⟩ := bind_ok done
  obtain ⟨row, sink, stored, put, is⟩ := filed_inv done
  refine ⟨trace, row, sink, orFault_ok built, stored, ?_⟩
  cases root : trace.rootCatalyst.isSome with
  | true =>
      simp only [root, if_true] at put is
      exact ⟨put, is⟩
  | false =>
      simp only [root, Bool.false_eq_true, if_false] at put is
      exact ⟨put, is⟩

theorem persisted_key {row : TraceRow} (persisted : Persisted profile toJson analysis row) :
    row.orderKey = analysis.orderKey := by
  obtain ⟨trace, built, stored⟩ := persisted
  unfold ManifestRun.traceOf at built
  obtain ⟨event, -, built⟩ := bind_ok built
  obtain rfl := Except.ok.inj built
  exact fromTrace_key stored

theorem traceOf_ok (profile : Profile) (analysis : TripAnalysis) :
    ∃ trace, ManifestRun.traceOf profile analysis = .ok trace := by
  have inside : profile.subI64 analysis.tripEvent.tsNs.toInt64 analysis.tripEvent.tsNs.toInt64 =
      .ok (analysis.tripEvent.tsNs.toInt64 - analysis.tripEvent.tsNs.toInt64) := by
    refine if_neg ?_
    rw [Int.sub_self]
    rintro ⟨-, low | high⟩
    · exact absurd low (by decide)
    · exact absurd high (by decide)
  exact ⟨_, by simp only [ManifestRun.traceOf, tripEventToTrace, inside]; rfl⟩

theorem filed_keys {analyses : List TripAnalysis}
    (filed : List.Forall₂ (Persisted profile toJson) analyses rows) :
    rows.map TraceRow.orderKey = analyses.map TripAnalysis.orderKey := by
  induction filed with
  | nil => rfl
  | cons persisted _ ih => rw [List.map_cons, List.map_cons, ih, persisted_key persisted]

theorem persist_ok (serializes : ∀ trace, ∃ text, toJson trace = .ok text) {st : ManifestRun}
    (holds : WriteOnce.Holds TraceRow.orderKey st.sink.rows rows)
    (new : analysis.orderKey ∉ rows.map TraceRow.orderKey) :
    ∃ row run, st.persist profile toJson analysis = .ok run ∧
      Persisted profile toJson analysis row ∧ run.engine = st.engine ∧ run.trips = st.trips + 1 ∧
      WriteOnce.Holds TraceRow.orderKey run.sink.rows (rows ++ [row]) := by
  obtain ⟨trace, built⟩ := traceOf_ok profile analysis
  obtain ⟨text, written⟩ := serializes trace
  obtain ⟨row, stored⟩ : ∃ row, TraceRow.fromTrace toJson trace = .ok row := by
    rw [TraceRow.fromTrace, written]
    exact ⟨_, rfl⟩
  have persisted : Persisted profile toJson analysis row := ⟨trace, built, stored⟩
  rw [← persisted_key persisted] at new
  have kept := @put_new JsonError st.sink rows holds row new
  have done : ∃ run, st.persist profile toJson analysis = .ok run ∧ run.engine = st.engine ∧
      run.trips = st.trips + 1 ∧ run.sink = ⟨st.sink.rows.insert row.orderKey row⟩ := by
    unfold ManifestRun.persist
    cases root : trace.rootCatalyst.isSome with
    | true =>
        simp only [built, orFault, bind, Except.bind, stored, root, if_true, kept]
        exact ⟨_, rfl, rfl, rfl, rfl⟩
    | false =>
        simp only [built, orFault, bind, Except.bind, stored, root, Bool.false_eq_true, if_false,
          kept]
        exact ⟨_, rfl, rfl, rfl, rfl⟩
  obtain ⟨run, done, engine, trips, sink⟩ := done
  refine ⟨row, run, done, persisted, engine, trips, ?_⟩
  rw [sink]
  exact holds.insert new

variable (profile toJson) in
theorem step_cases (st : ManifestRun) (packet : Packet) :
    (∃ fault, st.engine.feed profile packet = .error fault ∧
      st.step profile toJson packet = .error (.fault fault)) ∨
    ∃ st' result, st.engine.feed profile packet = .ok (st'.engine, result) ∧
      st'.sink = st.sink ∧ st'.trips = st.trips ∧
      st.step profile toJson packet = match result with
        | none => .ok st'
        | some analysis => st'.persist profile toJson analysis := by
  unfold ManifestRun.step CausalGraphObserver.feed tryParse
  rcases parseFrame_cases packet.1 packet.2 with ⟨proto, parsed⟩ | ⟨error, failed⟩
  · simp only [parsed, bind, Except.bind]
    cases observed : st.engine.observe profile ⟨packet.1, proto, packet.2⟩ with
    | error fault => exact Or.inl ⟨fault, rfl, rfl⟩
    | ok found =>
        obtain ⟨engine, result⟩ := found
        right
        refine ⟨{ st with engine, frames := st.frames + 1, parsed := st.parsed + 1 }, result, rfl,
          rfl, rfl, ?_⟩
        cases result with
        | none => rfl
        | some analysis => rfl
  · simp only [failed, bind, Except.bind]
    exact Or.inr ⟨{ st with frames := st.frames + 1, dropped := st.dropped + 1 }, none, rfl, rfl,
      rfl, rfl⟩

structure Filed (profile : Profile) (toJson : CausalTrace → Except JsonError String)
    (manifest : DependencyManifest) (st : ManifestRun) (history : History)
    (analyses : List TripAnalysis) (rows : List TraceRow) : Prop where
  refines : Refines st.engine manifest history
  persisted : List.Forall₂ (Persisted profile toJson) analyses rows
  trips : st.trips = analyses.length
  holds : WriteOnce.Holds TraceRow.orderKey st.sink.rows rows

theorem step_keeps (serializes : ∀ trace, ∃ text, toJson trace = .ok text) {st : ManifestRun}
    {history history' : History} {analyses : List TripAnalysis}
    (filed : Filed profile toJson manifest st history analyses rows) {packet : Packet}
    {after : CausalGraphObserver 10000} {result : Option TripAnalysis}
    (fed : st.engine.feed profile packet = .ok (after, result))
    (refines : Refines after manifest history')
    (new : ((analyses ++ result.toList).map TripAnalysis.orderKey).Nodup) :
    ∃ st' rows', st.step profile toJson packet = .ok st' ∧ st'.engine = after ∧
      Filed profile toJson manifest st' history' (analyses ++ result.toList) rows' := by
  obtain ⟨-, persisted, counted, holds⟩ := filed
  rcases step_cases profile toJson st packet with ⟨fault, fed', -⟩ |
    ⟨st', result', fed', sink, trips, stepped⟩
  · cases fed.symm.trans fed'
  · obtain ⟨rfl, rfl⟩ := Prod.mk.inj (Except.ok.inj (fed.symm.trans fed'))
    rw [← sink] at holds
    cases result with
    | none =>
        refine ⟨st', rows, stepped, rfl, ?_⟩
        rw [Option.toList_none, List.append_nil]
        exact ⟨refines, persisted, trips.trans counted, holds⟩
    | some analysis =>
        rw [Option.toList_some, List.map_append, List.map_singleton] at new
        have absent : analysis.orderKey ∉ rows.map TraceRow.orderKey := by
          rw [filed_keys persisted]
          intro member
          exact (List.nodup_append.mp new).2.2 _ member _ (List.mem_singleton_self _) rfl
        obtain ⟨row, run, done, persisted', engine, trips', holds'⟩ :=
          @persist_ok _ profile _ _ analysis serializes st' holds absent
        refine ⟨run, rows ++ [row], stepped.trans done, engine, engine ▸ refines,
          List.rel_append persisted (.cons persisted' .nil), ?_, holds'⟩
        rw [trips', trips, counted, List.length_append]
        rfl

theorem loop_keeps (serializes : ∀ trace, ∃ text, toJson trace = .ok text)
    (indexed : manifest.Indexed) {packets : List Packet} {st : ManifestRun} {history : History}
    {analyses : List TripAnalysis}
    (filed : Filed profile toJson manifest st history analyses rows)
    (distinct : ((analyses ++ st.engine.reports profile packets).map TripAnalysis.orderKey).Nodup) :
    match packets.foldlM (ManifestRun.step profile toJson) st with
    | .ok run => ∃ history' rows', Filed profile toJson manifest run history'
        (analyses ++ st.engine.reports profile packets) rows'
    | .error (.err _) => False
    | .error (.fault fault) => DevOnly profile fault := by
  induction packets generalizing st history analyses rows with
  | nil =>
      rw [CausalGraphObserver.reports, List.append_nil]
      exact ⟨history, rows, filed⟩
  | cons packet packets ih =>
      rw [List.foldlM_cons]
      rw [CausalGraphObserver.reports] at distinct ⊢
      rcases feed_cases profile filed.refines indexed packet with ⟨after, fed, refines⟩ |
        ⟨fault, devOnly, fed⟩
      · simp only [fed] at distinct ⊢
        rw [← List.append_assoc] at distinct ⊢
        have new := distinct
        rw [List.map_append] at new
        obtain ⟨st', rows', stepped, rfl, filed'⟩ :=
          step_keeps serializes filed fed refines (List.nodup_append.mp new).1
        rw [stepped]
        exact ih filed' distinct
      · rcases step_cases profile toJson st packet with ⟨fault', fed', stepped⟩ |
          ⟨st', result, fed', -⟩
        · cases fed.symm.trans fed'
          rw [stepped]
          exact devOnly
        · cases fed.symm.trans fed'

end

/-! ## The run -/

theorem recordTime_small (nanos : Bool) (sec frac : UInt32) :
    recordTime nanos sec frac < 2 ^ 62 := by
  have secLt := UInt32.toNat_lt sec
  have fracLt := UInt32.toNat_lt frac
  unfold recordTime
  split <;> omega

theorem reads_times {fmt : PcapFormat} {bytes : List UInt8} {frames : List (Packet × Bool)}
    {ending : Front} (reads : Reads fmt bytes frames ending) :
    ∀ packet ∈ frames.map Prod.fst, packet.1.toNat < 2 ^ 62 := by
  induction reads with
  | stop => exact fun _ member => absurd member List.not_mem_nil
  | next is reads ih =>
      obtain ⟨-, -, rfl, -⟩ := front_record_iff.mp is
      rw [List.map_cons]
      refine List.forall_mem_cons.mpr ⟨?_, ih⟩
      rw [UInt64.toNat_ofNat']
      exact lt_of_le_of_lt (Nat.mod_le _ _) (recordTime_small _ _ _)

theorem range_all {sink : InMemorySink} {rows : List TraceRow}
    (holds : WriteOnce.Holds TraceRow.orderKey sink.rows rows)
    (times : ∀ row ∈ rows, row.tripTsNs.toNat < 2 ^ 62) :
    ∃ found, sink.range 0 0xffffffffffffffff = .ok found ∧ found.Perm rows ∧
      found.Pairwise fun a b => a.tripTsNs ≤ b.tripTsNs := by
  refine ⟨_, range_ok (by decide), holds.between_all fun row member => ?_, ?_⟩
  · rw [isGE_boundary, isLT_boundary, UInt64.lt_iff_toNat_lt]
    exact ⟨UInt64.le_iff_toNat_le.mpr (Nat.zero_le _),
      lt_trans (times row member) (by decide)⟩
  · refine (holds.between_ordered _ _).imp ?_
    intro a b lt
    rcases compare_lt_iff.mp lt with before | ⟨same, -⟩
    · exact UInt64.le_of_lt before
    · exact UInt64.le_of_eq same

section
variable {profile : Profile} {JsonError : Type} {toJson : CausalTrace → Except JsonError String}
  {manifest : DependencyManifest} {fmt : PcapFormat} {bytes : List UInt8}
  {frames : List (Packet × Bool)} {ending : Front}

theorem filed_times (indexed : manifest.Indexed) (reads : Reads fmt bytes frames ending)
    (few : frames.length < 2 ^ 64) {rows : List TraceRow}
    (filed : List.Forall₂ (Persisted profile toJson)
      ((CausalGraphObserver.new manifest : CausalGraphObserver 10000).reports profile
        (frames.map Prod.fst)) rows) :
    ∀ row ∈ rows, row.tripTsNs.toNat < 2 ^ 62 := by
  intro row member
  have short : ([] : History).length + (frames.map Prod.fst).length < 2 ^ 64 := by
    rw [List.length_map, List.length_nil, Nat.zero_add]
    exact few
  have key := List.mem_map_of_mem (f := TraceRow.orderKey) member
  rw [filed_keys filed] at key
  obtain ⟨analysis, reported, same⟩ := List.mem_map.mp key
  obtain ⟨-, packet, inside, time⟩ := (reports_numbered indexed
    (refines_new (by decide : 0 < 10000) manifest) short).2 _ reported
  have times : row.tripTsNs = packet.1 := (congrArg OrderKey.tsNs same).symm.trans time
  rw [times]
  exact reads_times reads packet inside

theorem runWithManifest_eq {order : IterationOrder} {cfg : ManifestCfg}
    (accepted : cfg.build order = .ok manifest) {file : CaptureFile} {src : StreamingPcapSource}
    (opened : StreamingPcapSource.new file.content = .ok src) {read truncated : Nat}
    (reads : Reads fmt bytes frames ending) (at_ : StreamAt src fmt bytes read truncated)
    {fuel : Nat} (enough : frames.length < fuel) :
    ∃ after, runWithManifest profile order toJson fuel cfg file =
      ((frames.map Prod.fst).foldlM (ManifestRun.step profile toJson) (.new manifest) >>=
        fun state => .ok (state, after)) := by
  obtain ⟨after, looped, -⟩ :=
    eachFrame_eq profile (ManifestRun.step profile toJson) reads at_ fuel enough (.new manifest)
  refine ⟨after, ?_⟩
  rw [← looped, runWithManifest, accepted, opened]
  rfl

end

theorem run_keeps {order : IterationOrder} {cfg : ManifestCfg} {manifest : DependencyManifest}
    (accepted : cfg.build order = .ok manifest) (profile : Profile) {JsonError : Type}
    {toJson : CausalTrace → Except JsonError String}
    (serializes : ∀ trace, ∃ text, toJson trace = .ok text) (file : CaptureFile)
    {src : StreamingPcapSource} (opened : StreamingPcapSource.new file.content = .ok src)
    {fuel : Nat} (enough : file.content.items.length < fuel) :
    ∃ after packets, (drain (StreamingPcapSource.nextFrame profile) fuel src).1.map Prod.fst =
        packets ∧
      runWithManifest profile order toJson fuel cfg file =
        (packets.foldlM (ManifestRun.step profile toJson) (.new manifest) >>=
          fun state => .ok (state, after)) ∧
      RunKeepsEvidence profile toJson
        ((CausalGraphObserver.new manifest : CausalGraphObserver 10000).reports profile packets)
        (runWithManifest profile order toJson fuel cfg file) := by
  obtain ⟨⟨bytes, schedule⟩, fits⟩ := file
  obtain ⟨fmt, long, magic, at_⟩ := stream_opened opened
  obtain ⟨frames, ending, reads⟩ := reads_total fmt (bytes.drop 24)
  have size := reads_length reads
  rw [List.length_drop] at size
  have few : frames.length < fuel := by
    have enough : bytes.length < fuel := enough
    omega
  have indexed := indexed_of_build accepted
  have refines := refines_new (by decide : 0 < 10000) manifest
  have few' : frames.length < 2 ^ 64 := by
    have fits : bytes.length < 2 ^ 64 := fits
    omega
  -- The keys of the trips are known to differ before the loop files any of them.
  have distinct := @reports_distinct profile _ _ _ _ indexed (frames.map Prod.fst) refines (by
    rw [List.length_map, List.length_nil, Nat.zero_add]
    exact few')
  obtain ⟨after, run⟩ := @runWithManifest_eq profile _ toJson _ _ _ _ _ _ _ accepted
    ⟨⟨bytes, schedule⟩, fits⟩ _ opened _ _ reads at_ _ few
  refine ⟨after, _, (stream_drain profile reads at_ fuel few).1, run, distinct, ?_⟩
  have kept := @loop_keeps _ profile toJson _ _ serializes indexed (frames.map Prod.fst)
    (.new manifest) _ [] ⟨refines, .nil, rfl, WriteOnce.holds_empty⟩ distinct
  rw [run]
  cases result : (frames.map Prod.fst).foldlM (ManifestRun.step profile toJson)
      (.new manifest) with
  | error stop =>
      rw [result] at kept
      cases stop with
      | err error => exact kept
      | fault fault => exact kept
  | ok state =>
      rw [result, List.nil_append] at kept
      obtain ⟨-, rows, -, filed, trips, holds⟩ := kept
      exact ⟨trips, rows, filed, holds.size, range_all holds (filed_times indexed reads few' filed)⟩

theorem evidence_kept {order : IterationOrder} {cfg : ManifestCfg} {manifest : DependencyManifest}
    (accepted : cfg.build order = .ok manifest) (profile : Profile) {JsonError : Type}
    {toJson : CausalTrace → Except JsonError String}
    (serializes : ∀ trace, ∃ text, toJson trace = .ok text) (file : CaptureFile)
    {src : StreamingPcapSource} (opened : StreamingPcapSource.new file.content = .ok src)
    {fuel : Nat} (enough : file.content.items.length < fuel) :
    (∀ a a' ts ts' seq seq', formatTraceId a ts seq = formatTraceId a' ts' seq' →
      a = a' ∧ ts = ts' ∧ seq = seq') ∧
    RunKeepsEvidence profile toJson
      ((CausalGraphObserver.new manifest : CausalGraphObserver 10000).reports profile
        ((drain (StreamingPcapSource.nextFrame profile) fuel src).1.map Prod.fst))
      (runWithManifest profile order toJson fuel cfg file) := by
  obtain ⟨after, packets, drained, -, kept⟩ :=
    run_keeps accepted profile serializes file opened enough
  rw [drained]
  exact ⟨fun _ _ _ _ _ _ => formatTraceId_inj, kept⟩

theorem twice_reads : Reads ⟨false, false⟩ (Cell.twiceCapture.drop 24)
    (Cell.twice.map (·, false)) .finished := by
  have high : front ⟨false, false⟩ (Cell.twiceCapture.drop 24) =
      .record (0, Cell.plcBytes true) false (Cell.twiceCapture.drop 57) := by decide +kernel
  have low : front ⟨false, false⟩ (Cell.twiceCapture.drop 57) =
      .record (0, Cell.plcBytes false) false (Cell.twiceCapture.drop 90) := by decide +kernel
  have again : front ⟨false, false⟩ (Cell.twiceCapture.drop 90) =
      .record (0, Cell.plcBytes true) false (Cell.twiceCapture.drop 123) := by decide +kernel
  have last : front ⟨false, false⟩ (Cell.twiceCapture.drop 123) =
      .record (0, Cell.plcBytes false) false [] := by decide +kernel
  exact .next high (.next low (.next again (.next last (.stop rfl))))

theorem twice_trips : ((CausalGraphObserver.new Cell.manifest :
    CausalGraphObserver 10000).reports .release Cell.twice).map TripAnalysis.orderKey =
    [⟨0, "APPL-REPLAY:0:1"⟩, ⟨0, "APPL-REPLAY:0:3"⟩] := by
  decide +kernel

theorem evidence_kept_twice : ∃ src,
    StreamingPcapSource.new Cell.twiceFile.content = .ok src ∧
    let packets := (drain (StreamingPcapSource.nextFrame .release) 200 src).1.map Prod.fst
    let engine : CausalGraphObserver 10000 := .new Cell.manifest
    (engine.reports .release packets).map TripAnalysis.orderKey =
      [⟨0, "APPL-REPLAY:0:1"⟩, ⟨0, "APPL-REPLAY:0:3"⟩] ∧
    (∀ a a' ts ts' seq seq', formatTraceId a ts seq = formatTraceId a' ts' seq' →
      a = a' ∧ ts = ts' ∧ seq = seq') ∧
    RunKeepsEvidence .release Cell.twiceJson (engine.reports .release packets)
      (runWithManifest .release .declared Cell.twiceJson 200 Cell.cfg Cell.twiceFile) := by
  have long : Cell.twiceCapture.length = 156 := by decide +kernel
  have magic : magicOf (wordAt false Cell.twiceCapture 0) = .classic ⟨false, false⟩ := rfl
  obtain ⟨src, opened, at_⟩ := stream_opens (by rw [long]; decide) magic []
  have drained := (stream_drain .release twice_reads at_ 200 (by decide)).1
  rw [List.map_map, Function.comp_def, List.map_id'] at drained
  have content : Cell.twiceFile.content = ⟨Cell.twiceCapture, []⟩ := by rw [Cell.twiceFile]
  have enough : Cell.twiceFile.content.items.length < 200 := long.trans_lt (by decide)
  rw [← content] at opened
  refine ⟨src, opened, ?_, ?_⟩
  · rw [drained]
    exact twice_trips
  · -- The elaborator would run the file.
    generalize Cell.twiceFile = file at opened enough ⊢
    exact evidence_kept Cell.build_cfg .release (fun _ => ⟨_, rfl⟩) file opened enough

end Proof
end CausalWorks
