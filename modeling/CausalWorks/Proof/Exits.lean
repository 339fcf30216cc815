import CausalWorks.Proof.Counts
import CausalWorks.Proof.DiscoveryReport
import CausalWorks.Proof.Overlap
import CausalWorks.Proof.Reports

/-!
# What the commands exit with

No command panics, but for a run in a dev build whose manifest reads a bit beyond the status octet.
So the exit codes say all there is to say, and those of different commands agree.
-/

namespace CausalWorks
open Delivery (Response)

def ManifestCfg.Readable (cfg : ManifestCfg) : Prop := ∀ n ∈ cfg.nodes, n.matcher.Readable

def RunEnds {JsonError τ : Type} (profile : Profile)
    (toJson : CausalTrace → Except JsonError String) (cfg : ManifestCfg) :
    Except (Stop (RunError JsonError)) τ → Prop
  | .ok _ => True
  | .error (.err (.json error)) => ∃ trace, toJson trace = .error error
  | .error (.err _) => False
  | .error (.fault fault) => fault = .shiftOverflow ∧ profile = .dev ∧ ¬ cfg.Readable

structure ExitsAgree {IoError JsonError : Type} (host : Host IoError JsonError)
    (program pcap manifest : String) : Prop where
  prechecked : main host [program, "run-manifest", pcap, manifest] = .ok .success →
    main host [program, "validate", manifest] = .ok .success ∧
      main host [program, "discover", pcap] = .ok .success
  runnable : (∀ trace, ∃ text, host.toJson trace = .ok text) →
    (host.profile = .release ∨ ∀ cfg, host.fromPath manifest = .ok cfg → cfg.Readable) →
    main host [program, "validate", manifest] = .ok .success →
    main host [program, "discover", pcap] = .ok .success →
    main host [program, "run-manifest", pcap, manifest] = .ok .success
  preflighted : main host [program, "preflight", pcap] = .ok .success →
    main host [program, "discover", pcap] = .ok .success
  demo : main host [program, "run", pcap] = .ok .success →
    main host [program, "discover", pcap] = .ok .success

def Cell.beyond : Host Empty Empty :=
  { profile := .dev, order := .declared, reports := .inserted
    openFile := fun _ => .ok downFile
    writeFile := fun _ _ => .ok ()
    fromPath := fun _ => .ok ⟨[⟨plc, .profinet 0x0002 8⟩], [], plc⟩
    toJson := written }

namespace Proof

def Handled {ε α : Type} : Except (Stop ε) α → Prop
  | .ok _ | .error (.err _) => True
  | .error (.fault _) => False

section
variable {ε ε' α β : Type}

theorem Handled.bind {x : Except (Stop ε) α} {f : α → Except (Stop ε) β} (handled : Handled x)
    (next : ∀ a, x = .ok a → Handled (f a)) : Handled (x >>= f) := by
  cases x with
  | ok a => exact next a rfl
  | error stop => cases stop <;> exact handled

theorem Handled.wrap {x : Except (Stop ε) α} (handled : Handled x) (into : ε → ε') :
    Handled (wrapError into x) := by
  cases x with
  | ok a => trivial
  | error stop => cases stop <;> exact handled

theorem Handled.exits {x : Except (Stop ε) α} (handled : Handled x) (good : α → Bool) :
    ∃ code, exitOf good x = .ok code := by
  cases x with
  | ok a => exact ⟨_, rfl⟩
  | error stop =>
      cases stop with
      | err error => exact ⟨_, rfl⟩
      | fault fault => exact handled.elim

theorem wrapError_ok {into : ε → ε'} {x : Except (Stop ε) α} {a : α}
    (done : wrapError into x = .ok a) : x = .ok a := by
  cases x with
  | ok b => exact congrArg Except.ok (Except.ok.inj done)
  | error stop => cases stop <;> cases done

theorem exitOf_success {good : α → Bool} {outcome : Except (Stop ε) α} :
    exitOf good outcome = .ok .success ↔ ∃ a, outcome = .ok a ∧ good a = true := by
  cases outcome with
  | ok a => cases is : good a <;> simp [exitOf, is]
  | error stop => cases stop <;> simp [exitOf]

end

/-! ## The run over a manifest -/

section
variable {JsonError : Type} {profile : Profile} {toJson : CausalTrace → Except JsonError String}
  {cfg : ManifestCfg} {order : IterationOrder} {manifest : DependencyManifest}

theorem persist_cases {st : ManifestRun} {analysis : TripAnalysis} {rows : List TraceRow}
    (holds : WriteOnce.Holds TraceRow.orderKey st.sink.rows rows)
    (new : analysis.orderKey ∉ rows.map TraceRow.orderKey) :
    (∃ trace error, toJson trace = .error error ∧
      st.persist profile toJson analysis = .error (.err (.json error))) ∨
    ∃ row run, st.persist profile toJson analysis = .ok run ∧
      Persisted profile toJson analysis row ∧ run.engine = st.engine ∧ run.trips = st.trips + 1 ∧
      WriteOnce.Holds TraceRow.orderKey run.sink.rows (rows ++ [row]) := by
  obtain ⟨trace, built⟩ := traceOf_ok profile analysis
  cases written : toJson trace with
  | error error =>
      refine Or.inl ⟨trace, error, written, ?_⟩
      have failed : TraceRow.fromTrace toJson trace = .error error := by
        rw [TraceRow.fromTrace, written]
        rfl
      unfold ManifestRun.persist
      simp only [built, orFault, bind, Except.bind, failed]
  | ok text =>
      -- The serializer is asked for this trace only, so a total one does as well.
      let total : CausalTrace → Except JsonError String := fun _ => .ok text
      have same : TraceRow.fromTrace toJson trace = TraceRow.fromTrace total trace := by
        rw [TraceRow.fromTrace, written]
        rfl
      have alike : st.persist profile toJson analysis = st.persist profile total analysis := by
        unfold ManifestRun.persist
        simp only [built, orFault, bind, Except.bind, same]
      obtain ⟨row, run, done, ⟨trace', built', stored⟩, rest⟩ :=
        @persist_ok _ profile total _ analysis (fun _ => ⟨text, rfl⟩) st holds new
      obtain rfl := Except.ok.inj (built.symm.trans built')
      exact Or.inr ⟨row, run, alike.trans done, ⟨trace, built, same.trans stored⟩, rest⟩

theorem readsBits_of_readable (readable : cfg.Readable) (f : DecodedFieldbusFrame) :
    cfg.ReadsBits f := by
  intro n declared frameId bitIndex interlockBit rawStatusByte kind proto
  have here := readable n declared
  rw [kind] at here
  exact here

theorem feed_stops (accepted : cfg.build order = .ok manifest) {CAP : Nat}
    {s : CausalGraphObserver CAP} {history : History} (refines : Refines s manifest history)
    (few : history.length + 1 < 2 ^ 64) {packet : Packet} {fault : Fault}
    (failed : s.feed profile packet = .error fault) :
    fault = .shiftOverflow ∧ profile = .dev ∧ ¬ cfg.Readable := by
  have indexed := indexed_of_build accepted
  rcases feed_cases profile refines indexed packet with ⟨after, fed, -⟩ | ⟨_, ⟨dev, -⟩, -⟩
  · cases failed.symm.trans fed
  refine ⟨feed_faults indexed refines few failed, dev, fun readable => ?_⟩
  unfold CausalGraphObserver.feed at failed
  rcases parseFrame_cases packet.1 packet.2 with ⟨proto, parsed⟩ | ⟨error, parsed⟩
  · rw [parsed] at failed
    obtain ⟨after, done, -⟩ := observe_ok refines indexed ⟨packet.1, proto, packet.2⟩
      (classify_ok_of_readsBits profile (built_of_build accepted)
        (readsBits_of_readable readable _)) fun _ => refines.counts profile few
    cases failed.symm.trans done
  · rw [parsed] at failed
    cases failed

theorem loop_ends (accepted : cfg.build order = .ok manifest) {packets : List Packet}
    {st : ManifestRun} {history : History} {analyses : List TripAnalysis} {rows : List TraceRow}
    (filed : Filed profile toJson manifest st history analyses rows)
    (few : history.length + packets.length < 2 ^ 64)
    (distinct : ((analyses ++ st.engine.reports profile packets).map TripAnalysis.orderKey).Nodup) :
    RunEnds profile toJson cfg (packets.foldlM (ManifestRun.step profile toJson) st) := by
  induction packets generalizing st history analyses rows with
  | nil => trivial
  | cons packet packets ih =>
      rw [List.length_cons] at few
      rw [List.foldlM_cons]
      rw [CausalGraphObserver.reports] at distinct
      obtain ⟨refines, persisted, counted, holds⟩ := filed
      rcases step_cases profile toJson st packet with ⟨fault, failed, stepped⟩ |
        ⟨mid, result, fed, sink, trips, stepped⟩
      · rw [stepped]
        exact feed_stops accepted refines (by omega) failed
      rcases feed_cases profile refines (indexed_of_build accepted) packet with
        ⟨after, fed', refines'⟩ | ⟨_, -, failed⟩
      swap
      · cases fed.symm.trans failed
      obtain ⟨rfl, same⟩ := Prod.mk.inj (Except.ok.inj (fed.symm.trans fed'))
      have more := length_capture manifest history packet
      simp only [fed] at distinct
      rw [← List.append_assoc] at distinct
      rw [← sink] at holds
      rw [stepped]
      cases result with
      | none =>
          rw [Option.toList_none, List.append_nil] at distinct
          exact ih ⟨refines', persisted, trips.trans counted, holds⟩ (by omega) distinct
      | some analysis =>
          have absent : analysis.orderKey ∉ rows.map TraceRow.orderKey := by
            rw [List.map_append, List.map_append] at distinct
            rw [filed_keys persisted]
            intro member
            exact (List.nodup_append.mp (List.nodup_append.mp distinct).1).2.2 _ member _
              (List.mem_singleton_self _) rfl
          rcases @persist_cases _ profile toJson mid analysis rows holds absent with
            ⟨trace, error, unwritten, stops⟩ | ⟨row, run, done, persisted', engine, trips', holds'⟩
          · dsimp only
            rw [stops]
            exact ⟨trace, unwritten⟩
          · dsimp only
            rw [done]
            refine ih ⟨engine ▸ refines', List.rel_append persisted (.cons persisted' .nil), ?_,
              holds'⟩ (by omega) (engine.symm ▸ distinct)
            rw [trips', trips, counted, List.length_append]
            rfl

theorem run_ends (accepted : cfg.build order = .ok manifest) {file : CaptureFile}
    {packets : List Packet} (opens : Opens profile file packets) :
    RunEnds profile toJson cfg (runWithManifest profile order toJson file.bound cfg file) := by
  obtain ⟨few, -, -, s, opened, loops⟩ := opens
  obtain ⟨after, -, looped⟩ := loops (ManifestRun.step profile toJson) (.new manifest)
  have refines := refines_new (by decide : 0 < 10000) manifest
  have few' : ([] : History).length + packets.length < 2 ^ 64 := by
    rwa [List.length_nil, Nat.zero_add]
  have distinct := @reports_nodup profile _ _ _ _ (indexed_of_build accepted) packets refines few'
    _ TripAnalysis.orderKey fun _ _ same => (formatTraceId_inj (congrArg OrderKey.traceId same)).2.2
  have start : Filed profile toJson manifest (.new manifest) [] [] [] :=
    ⟨refines, .nil, rfl, WriteOnce.holds_empty⟩
  have ended := loop_ends accepted start few' distinct
  have run : runWithManifest profile order toJson file.bound cfg file =
      (packets.foldlM (ManifestRun.step profile toJson) (.new manifest) >>=
        fun state => .ok (state, after)) := by
    rw [← looped, runWithManifest, accepted, opened]
    rfl
  rw [run]
  cases folded : packets.foldlM (ManifestRun.step profile toJson) (.new manifest) with
  | ok state => trivial
  | error stop =>
      rw [folded] at ended
      cases stop with
      | fault fault => exact ended
      | err error => cases error <;> exact ended

theorem run_comes_through (accepted : cfg.build order = .ok manifest)
    (readable : profile = .release ∨ cfg.Readable)
    (serializes : ∀ trace, ∃ text, toJson trace = .ok text) {file : CaptureFile}
    {src : StreamingPcapSource} (opened : StreamingPcapSource.new file.content = .ok src) :
    ∃ outcome, runWithManifest profile order toJson file.bound cfg file = .ok outcome := by
  rcases opens_or_refused profile file with ⟨_, _, -, refused⟩ | ⟨packets, opens⟩
  · cases opened.symm.trans refused
  have ends := @run_ends _ profile toJson _ _ _ accepted file packets opens
  cases ran : runWithManifest profile order toJson file.bound cfg file with
  | ok outcome => exact ⟨outcome, rfl⟩
  | error stop =>
      rw [ran] at ends
      cases stop with
      | fault fault =>
          obtain ⟨-, dev, unreadable⟩ := ends
          rcases readable with release | readable
          · cases dev.symm.trans release
          · exact absurd readable unreadable
      | err error =>
          cases error with
          | json error =>
              obtain ⟨trace, failed⟩ := ends
              obtain ⟨text, written⟩ := serializes trace
              cases failed.symm.trans written
          | manifest | capture | storage => exact ends.elim

end

/-! ## The other commands -/

section
variable {JsonError : Type} {profile : Profile} {order : IterationOrder}
  {toJson : CausalTrace → Except JsonError String} {file : CaptureFile}

theorem preflight_ends (profile : Profile) (file : CaptureFile) :
    ∃ outcome, computePreflight profile file.bound file.content = .ok outcome := by
  rcases opens_or_refused profile file with ⟨error, error', -, refused⟩ | ⟨packets, opens⟩
  · rw [computePreflight, refused]
    exact ⟨_, rfl⟩
  · obtain ⟨verdict, stats, scanned, -⟩ :=
      (@counts_agree_of profile file packets opens [] (Nat.zero_le _)).preflight
    exact ⟨_, scanned⟩

theorem discover_ends {packets : List Packet} (opens : Opens profile file packets)
    (order : ReportOrder) :
    ∃ report, discoverReport profile order file.bound file.content = .ok report := by
  obtain ⟨-, early, -, s, opened, loops⟩ := opens
  obtain ⟨src, read, discovered⟩ :=
    loops (discoverFrame : _ → _ → Except (Stop StreamPcapError) _) .new
  rw [discover_eq] at discovered
  obtain ⟨report, printed, -⟩ := report_ok profile read early order
  refine ⟨report, ?_⟩
  rw [discoverReport, discover, opened]
  show (eachFrame profile discoverFrame file.bound .new s >>= _) = _
  rw [discovered]
  show orFault (printDiscoveryReport _ _ _ _) = _
  rw [printed]
  rfl

theorem demo_ends (profile : Profile) (order : IterationOrder)
    (toJson : CausalTrace → Except JsonError String) (file : CaptureFile) :
    Handled (runDemo profile order toJson file.bound file) := by
  rcases opens_or_refused profile file with ⟨error, error', refused, -⟩ | ⟨packets, opens⟩
  · rw [runDemo, refused]
    trivial
  have mirrored := @demo_mirrors profile order JsonError toJson file packets opens
  rw [demo_run_eq opens]
  cases folded : packets.foldlM (DemoRun.step profile toJson) (.new order) with
  | error stop =>
      rw [folded] at mirrored
      cases stop with
      | err error => trivial
      | fault fault => exact mirrored
  | ok state =>
      rw [folded] at mirrored
      obtain ⟨rows, -, -, numbered, -, persisted, holds⟩ := mirrored
      obtain ⟨found, scanned, -⟩ := range_all holds (demoRows_early numbered persisted)
      simp only [bind, Except.bind, scanned, orFault]
      trivial

end

/-! ## All commands -/

section
variable {IoError JsonError : Type} (host : Host IoError JsonError)

theorem handled_orIo {α : Type} (answer : Except IoError α) :
    Handled (Host.orIo answer : Host.Outcome IoError JsonError α) := by
  cases answer <;> trivial

theorem orIo_ok {α : Type} {answer : Except IoError α} {a : α}
    (done : (Host.orIo answer : Host.Outcome IoError JsonError α) = .ok a) : answer = .ok a := by
  cases answer with
  | ok b => exact congrArg Except.ok (Except.ok.inj done)
  | error error => cases done

theorem run_handled (path : String) : Handled (host.run path) :=
  (handled_orIo _).bind fun file _ => (demo_ends _ _ _ file).wrap _

theorem genFixture_handled (path : String) : Handled (host.genFixture path) := by
  obtain ⟨bytes, written⟩ : ∃ bytes, synthFixture host.profile = .ok bytes := by
    cases host.profile <;> exact ⟨_, rfl⟩
  rw [Host.genFixture, written]
  exact handled_orIo _

theorem preflight_handled (path : String) : Handled (host.preflight path) := by
  refine (handled_orIo _).bind fun file _ => ?_
  obtain ⟨⟨verdict, stats⟩, scanned⟩ := preflight_ends host.profile file
  rw [scanned]
  cases verdict <;> trivial

theorem discover_handled (path : String) : Handled (host.discover path) := by
  refine (handled_orIo _).bind fun file _ => Handled.wrap ?_ _
  rcases opens_or_refused host.profile file with ⟨error, error', -, refused⟩ | ⟨packets, opens⟩
  · rw [discoverReport, CausalWorks.discover, refused]
    trivial
  · obtain ⟨report, printed⟩ := discover_ends opens host.reports
    rw [printed]
    trivial

theorem validateManifest_handled (path : String) : Handled (host.validateManifest path) := by
  unfold Host.validateManifest
  cases host.fromPath path with
  | error error => trivial
  | ok cfg =>
      rcases build_cases host.order cfg with ⟨-, table, -, -, built⟩ | ⟨-, error, rejected, -⟩
      · simp only [built]
        trivial
      · simp only [rejected, ManifestCfg.reject]
        trivial

theorem runManifest_cases (pcap path : String) : Handled (host.runManifest pcap path) ∨
    host.runManifest pcap path = .error (.fault .shiftOverflow) ∧ host.profile = .dev ∧
      ∃ cfg, host.fromPath path = .ok cfg ∧ cfg.WellFormed ∧ ¬ cfg.Readable := by
  unfold Host.runManifest
  cases loaded : host.fromPath path with
  | error error => exact Or.inl trivial
  | ok cfg =>
      dsimp only
      rcases build_cases host.order cfg with ⟨wellFormed, table, -, -, built⟩ |
        ⟨-, error, rejected, -⟩
      swap
      · rw [rejected]
        exact Or.inl trivial
      rw [built]
      cases opened : host.openFile pcap with
      | error error => exact Or.inl trivial
      | ok file =>
          show Handled (wrapError _ (runWithManifest _ _ _ file.bound cfg file)) ∨
            wrapError _ (runWithManifest _ _ _ file.bound cfg file) = _ ∧ _
          rcases opens_or_refused host.profile file with ⟨error, error', -, refused⟩ |
            ⟨packets, opens⟩
          · rw [runWithManifest, built, refused]
            exact Or.inl trivial
          have ends := @run_ends _ host.profile host.toJson _ _ _ built file packets opens
          cases ran : runWithManifest host.profile host.order host.toJson file.bound cfg file with
          | ok outcome => exact Or.inl trivial
          | error stop =>
              rw [ran] at ends
              cases stop with
              | err error => exact Or.inl trivial
              | fault fault =>
                  obtain ⟨rfl, dev, unreadable⟩ := ends
                  exact Or.inr ⟨rfl, dev, cfg, rfl, wellFormed, unreadable⟩

theorem main_never_panics (args : List String) : (∃ code, main host args = .ok code) ∨
    main host args = .error .shiftOverflow ∧ host.profile = .dev ∧
      args[1]? = some "run-manifest" ∧ ∃ path cfg, args[3]? = some path ∧
        host.fromPath path = .ok cfg ∧ cfg.WellFormed ∧ ¬ cfg.Readable := by
  unfold main
  split
  case h_1 path _ _ => exact Or.inl ((run_handled host path).exits _)
  case h_2 path _ _ => exact Or.inl ((genFixture_handled host path).exits _)
  case h_3 path _ _ => exact Or.inl ((preflight_handled host path).exits _)
  case h_4 path _ _ => exact Or.inl ((discover_handled host path).exits _)
  case h_5 path _ _ => exact Or.inl ((validateManifest_handled host path).exits _)
  case h_6 pcap command _ =>
    split
    · rename_i path third
      rcases runManifest_cases host pcap path with handled | ⟨panics, dev, cfg, loaded, rest⟩
      · exact Or.inl (handled.exits _)
      · rw [panics]
        exact Or.inr ⟨rfl, dev, command, path, cfg, third, loaded, rest⟩
    · exact Or.inl ⟨_, rfl⟩
  case h_7 => exact Or.inl ⟨_, rfl⟩

theorem validates_iff {program path : String} :
    main host [program, "validate", path] = .ok .success ↔
      ∃ cfg manifest, host.fromPath path = .ok cfg ∧ cfg.build host.order = .ok manifest := by
  refine exitOf_success.trans ?_
  unfold Host.validateManifest
  cases host.fromPath path with
  | error error => simp
  | ok cfg =>
      cases built : cfg.build host.order with
      | ok manifest => simp [built]
      | error stop => cases stop <;> simp [built]

theorem discovers_iff {program path : String} :
    main host [program, "discover", path] = .ok .success ↔
      ∃ file packets, host.openFile path = .ok file ∧ Opens host.profile file packets := by
  refine exitOf_success.trans ?_
  unfold Host.discover
  cases host.openFile path with
  | error error => simp [Host.orIo, bind, Except.bind]
  | ok file =>
      simp only [Host.orIo, bind, Except.bind]
      rcases opens_or_refused host.profile file with ⟨error, error', eager, refused⟩ |
        ⟨packets, opens⟩
      · rw [discoverReport, CausalWorks.discover, refused]
        constructor
        · rintro ⟨report, printed, -⟩
          cases printed
        · rintro ⟨file', packets, same, -, -, ⟨e, opened, -⟩, -⟩
          obtain rfl := Except.ok.inj same
          cases eager.symm.trans opened
      · obtain ⟨report, printed⟩ := discover_ends opens host.reports
        rw [printed]
        exact ⟨fun _ => ⟨file, packets, rfl, opens⟩, fun _ => ⟨report, rfl, trivial⟩⟩

theorem runManifest_eq {pcap path : String} {cfg : ManifestCfg} {manifest : DependencyManifest}
    {file : CaptureFile} (loaded : host.fromPath path = .ok cfg)
    (built : cfg.build host.order = .ok manifest) (opened : host.openFile pcap = .ok file) :
    host.runManifest pcap path = wrapError .run
      (runWithManifest host.profile host.order host.toJson file.bound cfg file) := by
  rw [Host.runManifest, loaded]
  dsimp only
  rw [built, opened]
  rfl

theorem runs_if {program pcap path : String} {cfg : ManifestCfg} {manifest : DependencyManifest}
    {file : CaptureFile} {packets : List Packet} (loaded : host.fromPath path = .ok cfg)
    (built : cfg.build host.order = .ok manifest) (opened : host.openFile pcap = .ok file)
    (opens : Opens host.profile file packets)
    (serializes : ∀ trace, ∃ text, host.toJson trace = .ok text)
    (readable : host.profile = .release ∨ cfg.Readable) :
    main host [program, "run-manifest", pcap, path] = .ok .success := by
  obtain ⟨src, accepted, -⟩ := opens.stream
  obtain ⟨outcome, ran⟩ := @run_comes_through _ host.profile host.toJson _ _ _ built readable
    serializes file src accepted
  refine exitOf_success.mpr ⟨outcome, ?_, rfl⟩
  rw [runManifest_eq host loaded built opened, ran]
  rfl

theorem exits_agree (program pcap path : String) : ExitsAgree host program pcap path := by
  constructor
  case prechecked =>
    intro ran
    obtain ⟨outcome, ran, -⟩ := exitOf_success.mp ran
    unfold Host.runManifest at ran
    cases loaded : host.fromPath path with
    | error error =>
        rw [loaded] at ran
        cases ran
    | ok cfg =>
        rw [loaded] at ran
        obtain ⟨manifest, built, ran⟩ := bind_ok ran
        obtain ⟨file, opened, ran⟩ := bind_ok ran
        have built := wrapError_ok built
        have opened := orIo_ok opened
        refine ⟨(validates_iff host).mpr ⟨cfg, manifest, loaded, built⟩, ?_⟩
        rcases opens_or_refused host.profile file with ⟨_, _, -, refused⟩ | ⟨packets, opens⟩
        · rw [runWithManifest, built, refused] at ran
          cases ran
        · exact (discovers_iff host).mpr ⟨file, packets, opened, opens⟩
  case runnable =>
    intro serializes readable valid found
    obtain ⟨cfg, manifest, loaded, built⟩ := (validates_iff host).mp valid
    obtain ⟨file, packets, opened, opens⟩ := (discovers_iff host).mp found
    exact runs_if host loaded built opened opens serializes
      (readable.imp_right fun all => all cfg loaded)
  case preflighted =>
    intro ran
    obtain ⟨verdict, ran, good⟩ := exitOf_success.mp ran
    obtain ⟨file, opened, ran⟩ := bind_ok ran
    rcases opens_or_refused host.profile file with ⟨_, _, -, refused⟩ | ⟨packets, opens⟩
    · rw [computePreflight, refused] at ran
      obtain rfl := Except.ok.inj ran
      cases good
    · exact (discovers_iff host).mpr ⟨file, packets, orIo_ok opened, opens⟩
  case demo =>
    intro ran
    obtain ⟨outcome, ran, -⟩ := exitOf_success.mp ran
    obtain ⟨file, opened, ran⟩ := bind_ok ran
    rcases opens_or_refused host.profile file with ⟨_, _, refused, -⟩ | ⟨packets, opens⟩
    · rw [runDemo, refused] at ran
      cases ran
    · exact (discovers_iff host).mpr ⟨file, packets, orIo_ok opened, opens⟩

end

example : main Cell.beyond ["", "validate", "m"] = .ok .success ∧
    main Cell.beyond ["", "discover", "c"] = .ok .success ∧
    main Cell.beyond ["", "run-manifest", "c", "m"] = .error .shiftOverflow := ⟨rfl, rfl, rfl⟩

end Proof
end CausalWorks
