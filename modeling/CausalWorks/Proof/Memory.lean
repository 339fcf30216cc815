import CausalWorks.Proof.Counts

/-!
# Memory that no capture exhausts

The commands over the streaming reader hold a bounded number of items at every point of their
loops, however long the capture is. Only the stored evidence grows, by one row with each trip.
-/

namespace CausalWorks
open Keyed (Table)
open Delivery (Source BufReader)

inductive Visits {τ ε : Type} (profile : Profile) (body : τ → Packet → Except (Stop ε) τ)
    (start : τ × StreamingPcapSource) : τ → StreamingPcapSource → Prop
  | start : Visits profile body start start.1 start.2
  | next {state state' : τ} {src src' : StreamingPcapSource} {packet : Packet}
      (before : Visits profile body start state src)
      (yields : src.nextFrame profile = .ok (some packet, src'))
      (done : body state packet = .ok state') : Visits profile body start state' src'
  | last {state : τ} {src src' : StreamingPcapSource} (before : Visits profile body start state src)
      (ends : src.nextFrame profile = .ok (none, src')) : Visits profile body start state src'

def StreamingPcapSource.held (self : StreamingPcapSource) : Nat :=
  self.rdr.buf.length + self.scratch.length

def StreamProfile.held (self : StreamProfile) : Nat :=
  self.interarrival.buckets.toList.length + self.firstPayload.length + self.xorMask.length

def DiscoveryEngine.held (self : DiscoveryEngine) : Nat :=
  self.streams.total StreamProfile.held + self.unclassified.byEthertype.entries.length

def StreamKey.code : StreamKey → Nat
  | .profinet frameId => frameId.toNat
  | .udpPort dstPort => 65536 + dstPort.toNat
  | .s7comm port => 131072 + port.toNat

structure RunKept (manifest : DependencyManifest) (run : ManifestRun) : Prop where
  manifest_eq : run.engine.manifest = manifest
  rows : run.sink.len = run.trips
  levels : ∀ node, run.engine.lastInterlock node ≠ none → node ∈ manifest.nodes

structure MemoryBounded (profile : Profile) (opened : StreamingPcapSource) : Prop where
  reader : ∀ {τ ε : Type} {body : τ → Packet → Except (Stop ε) τ} {start state src},
    Visits profile body (start, opened) state src → src.held ≤ 1048576 + 262144
  discovery : ∀ {ε : Type} {disc src},
    Visits profile (discoverFrame : _ → _ → Except (Stop ε) _) (.new, opened) disc src →
      disc.held ≤ 196608 * (512 + 2 * 262144) + 65536
  preflight : ∀ {ε : Type} {scan src},
    Visits profile (PreflightScan.scanFrame : _ → _ → Except (Stop ε) _) ({}, opened) scan src →
      scan.stats.ethertypes.entries.length ≤ 65536
  run : ∀ {JsonError : Type} {toJson : CausalTrace → Except JsonError String} {manifest run src},
    Visits profile (ManifestRun.step profile toJson) (.new manifest, opened) run src →
      RunKept manifest run
  ends : ∀ {τ ε : Type} {body : τ → Packet → Except (Stop ε) τ} {start fuel state src},
    eachFrame profile body fuel start opened = .ok (state, src) →
      Visits profile body (start, opened) state src

namespace Proof

structure Roomy (src : StreamingPcapSource) : Prop where
  within : src.rdr.Within 1048576
  scratch : src.scratch.length ≤ 262144

section
variable {profile : Profile} {src after : StreamingPcapSource} {rdr rdr' : BufReader UInt8}

theorem fillBuf_within {capacity want : Nat} {got : List UInt8} (within : rdr.Within capacity)
    (done : fillBuf rdr want = .ok (got, rdr')) : rdr'.Within capacity ∧ got.length ≤ want := by
  unfold fillBuf at done
  split at done
  · rename_i filled
    obtain rfl := Except.ok.inj done
    exact within.fill (Nat.zero_le _) filled
  · cases done

theorem readExact_within {capacity want : Nat} {got : List UInt8} (within : rdr.Within capacity)
    (done : readExact rdr want = .ok (got, rdr')) : rdr'.Within capacity := by
  unfold readExact at done
  obtain ⟨⟨filled, mid⟩, read, done⟩ := bind_ok done
  dsimp only at done
  split at done
  · cases done
  · obtain ⟨-, rfl⟩ := Prod.mk.inj (Except.ok.inj done)
    exact (fillBuf_within within (orFault_ok read)).1

theorem new_roomy {source : Source UInt8} (opened : StreamingPcapSource.new source = .ok src) :
    Roomy src := by
  unfold StreamingPcapSource.new at opened
  obtain ⟨⟨ghdr, rdr⟩, read, opened⟩ := bind_ok opened
  have within := readExact_within (BufReader.within_withCapacity (1 <<< 20) source) read
  obtain ⟨magic, -, opened⟩ := bind_ok opened
  split at opened
  · obtain rfl := Except.ok.inj opened
    exact ⟨within, Nat.zero_le _⟩
  · cases opened
  · cases opened

theorem readFullOrEof_within {capacity want : Nat} {state : ReadState} {got : List UInt8}
    (within : rdr.Within capacity) (done : readFullOrEof rdr want = .ok (state, got, rdr')) :
    rdr'.Within capacity := by
  unfold readFullOrEof at done
  obtain ⟨⟨filled, mid⟩, read, done⟩ := bind_ok done
  have within' := (fillBuf_within within read).1
  dsimp only at done
  split at done
  · obtain ⟨-, -, rfl⟩ := Except.ok.inj done
    exact within'
  · obtain ⟨-, -, rfl⟩ := Except.ok.inj done
    exact within'

theorem readExactOrShort_within {capacity want : Nat} {whole : Bool} {got : List UInt8}
    (within : rdr.Within capacity) (done : readExactOrShort rdr want = .ok (whole, got, rdr')) :
    rdr'.Within capacity ∧ got.length ≤ want := by
  unfold readExactOrShort at done
  obtain ⟨⟨filled, mid⟩, read, done⟩ := bind_ok done
  obtain ⟨-, rfl, rfl⟩ := Except.ok.inj done
  exact fillBuf_within within read

theorem nextFrame_roomy (roomy : Roomy src) {result : Option Packet}
    (done : src.nextFrame profile = .ok (result, after)) :
    Roomy after ∧ ∀ packet, result = some packet → packet.2.length ≤ 262144 := by
  obtain ⟨within, scratch⟩ := roomy
  unfold StreamingPcapSource.nextFrame at done
  obtain ⟨⟨state, rhdr, rdr⟩, header, done⟩ := bind_ok done
  have within' := readFullOrEof_within within (orFault_ok header)
  cases state with
  | eof | cutShort =>
      obtain ⟨rfl, rfl⟩ := Prod.mk.inj (Except.ok.inj done)
      exact ⟨⟨within', scratch⟩, fun _ is => nomatch is⟩
  | full =>
      obtain ⟨tsSec, -, done⟩ := bind_ok done
      obtain ⟨tsFrac, -, done⟩ := bind_ok done
      obtain ⟨inclLen, -, done⟩ := bind_ok done
      obtain ⟨origLen, -, done⟩ := bind_ok done
      dsimp only at done
      split at done
      · cases done
      rename_i sane
      obtain ⟨⟨whole, filled, rdr'⟩, body, done⟩ := bind_ok done
      obtain ⟨within'', short⟩ := readExactOrShort_within within' (orFault_ok body)
      have fits : inclLen.toNat ≤ 262144 := by
        rw [UInt32.not_lt] at sane
        exact UInt32.le_iff_toNat_le.mp sane
      have small : (filled ++ (StreamingPcapSource.resize src.scratch inclLen.toNat).drop
          filled.length).length ≤ 262144 := by
        rw [List.length_append, List.length_drop, length_resize]
        omega
      dsimp only at done
      split at done
      · obtain ⟨rfl, rfl⟩ := Prod.mk.inj (Except.ok.inj done)
        exact ⟨⟨within'', small⟩, fun _ is => nomatch is⟩
      · obtain ⟨tsNs, -, done⟩ := bind_ok done
        obtain ⟨rfl, rfl⟩ := Prod.mk.inj (Except.ok.inj done)
        exact ⟨⟨within'', small⟩, fun _ is => Option.some.inj is ▸ small⟩

end

theorem eachFrame_visits {τ ε : Type} {profile : Profile} {body : τ → Packet → Except (Stop ε) τ}
    {start : τ × StreamingPcapSource} {state state' : τ} {src src' : StreamingPcapSource}
    {fuel : Nat} (before : Visits profile body start state src)
    (done : eachFrame profile body fuel state src = .ok (state', src')) :
    Visits profile body start state' src' := by
  induction fuel generalizing state src with
  | zero => cases done
  | succ fuel ih =>
      unfold eachFrame at done
      split at done
      · rename_i yields
        obtain ⟨mid, stepped, done⟩ := bind_ok done
        exact ih (.next before yields stepped) done
      · rename_i ends
        obtain ⟨rfl, rfl⟩ := Prod.mk.inj (Except.ok.inj done)
        exact .last before ends
      · obtain ⟨rfl, rfl⟩ := Prod.mk.inj (Except.ok.inj done)
        exact before
      · cases done

theorem visits_keep {τ ε : Type} {profile : Profile} {body : τ → Packet → Except (Stop ε) τ}
    {start state : τ} {opened src : StreamingPcapSource} (good : τ → Prop) (roomy : Roomy opened)
    (first : good start) (more : ∀ state packet state', good state → packet.2.length ≤ 262144 →
      body state packet = .ok state' → good state')
    (visits : Visits profile body (start, opened) state src) : Roomy src ∧ good state := by
  induction visits with
  | start => exact ⟨roomy, first⟩
  | next _ yields done ih =>
      obtain ⟨roomy', small⟩ := nextFrame_roomy ih.1 yields
      exact ⟨roomy', more _ _ _ ih.2 (small _ rfl) done⟩
  | last _ ends ih => exact ⟨(nextFrame_roomy ih.1 ends).1, ih.2⟩

theorem length_ioPayload (buf : List UInt8) : (ioPayload buf).length ≤ buf.length := by
  unfold ioPayload
  split
  · rw [List.length_drop]
    omega
  · exact Nat.zero_le _

theorem held_stream {v : StreamProfile} (payload : v.firstPayload.length ≤ 262144) :
    v.held ≤ 512 + 2 * 262144 := by
  have mask := v.aligned
  have counters : v.interarrival.buckets.toList.length = 512 := Vector.length_toList
  rw [StreamProfile.held, counters]
  omega

theorem take_payload {v : StreamProfile} {f : DecodedFieldbusFrame}
    (kept : v.firstPayload.length ≤ 262144) (small : f.raw.length ≤ 262144) :
    (v.take f).firstPayload.length ≤ 262144 := by
  have same : (v.recordGap f.tapTsNs).firstPayload = v.firstPayload := by
    unfold StreamProfile.recordGap
    split <;> rfl
  unfold StreamProfile.take StreamProfile.observe DecodedFieldbusFrame.watchedPayload
  cases f.proto with
  | profinetIrt =>
      unfold StreamProfile.comparePayload
      dsimp only
      split
      · exact (length_ioPayload f.raw).trans small
      · rw [same]
        exact kept
  | ros2Udp | fanucUdp | s7commArrival =>
      unfold StreamProfile.comparePayload
      dsimp only
      rw [same]
      exact kept

theorem code_injective : Function.Injective StreamKey.code := by
  intro a b same
  cases a with
  | profinet x | udpPort x | s7comm x =>
    have := UInt16.toNat_lt x
    cases b with
    | profinet y | udpPort y | s7comm y =>
      have := UInt16.toNat_lt y
      simp only [StreamKey.code] at same
      first
      | omega
      | rw [UInt16.toNat_inj.mp (by omega : x.toNat = y.toNat)]

theorem code_lt (key : StreamKey) : key.code < 196608 := by
  cases key with
  | profinet x | udpPort x | s7comm x =>
    have := UInt16.toNat_lt x
    simp only [StreamKey.code]
    omega

theorem length_types_le (table : Table UInt16 Nat) : table.entries.length ≤ 65536 :=
  table.length_entries_le (fun _ _ => UInt16.toNat_inj.mp) UInt16.toNat_lt

def PayloadsKept (disc : DiscoveryEngine) : Prop :=
  ∀ key v, disc.streams.value key = some v → v.firstPayload.length ≤ 262144

theorem discovered_payloads {disc : DiscoveryEngine} (kept : PayloadsKept disc) {packet : Packet}
    (small : packet.2.length ≤ 262144) : PayloadsKept (disc.discovered packet) := by
  unfold DiscoveryEngine.discovered
  rcases parseFrame_cases packet.1 packet.2 with ⟨proto, parsed⟩ | ⟨error, failed⟩
  · rw [parsed]
    exact Table.all_upsert kept (take_payload (Nat.zero_le _) small)
      fun _ here => take_payload here small
  · rw [failed]
    dsimp only
    unfold DiscoveryEngine.observeUnclassified
    split <;> exact kept

theorem held_disc {disc : DiscoveryEngine} (kept : PayloadsKept disc) :
    disc.held ≤ 196608 * (512 + 2 * 262144) + 65536 := by
  have streams := Table.total_le fun key v held => held_stream (kept key v held)
  have keys := disc.streams.length_entries_le code_injective code_lt
  have types := length_types_le disc.unclassified.byEthertype
  exact Nat.add_le_add (streams.trans (Nat.mul_le_mul_right _ keys)) types

section
variable {profile : Profile} {CAP : Nat} {s after : CausalGraphObserver CAP} {node : NodeId}

theorem assigned_node {manifest : DependencyManifest} {f : DecodedFieldbusFrame}
    {interlock : Option Bool} (assigned : manifest.assign f = some (node, interlock)) :
    node ∈ manifest.nodes := by
  obtain ⟨⟨id, matcher⟩, entry, claims⟩ := List.exists_of_findSome?_eq_some assigned
  obtain ⟨reading, -, same⟩ := Option.map_eq_some_iff.mp claims
  obtain ⟨rfl, -⟩ := Prod.mk.inj same
  exact AList.mem_keys.mpr (List.mem_map.mpr ⟨_, entry, rfl⟩)

theorem detectTrip_knows {interlock : Option Bool} {other : NodeId}
    (known : (s.detectTrip node interlock).2 other ≠ none) :
    s.lastInterlock other ≠ none ∨ other = node := by
  by_cases same : other = node
  · exact Or.inr same
  left
  unfold CausalGraphObserver.detectTrip at known
  split at known <;> cases interlock <;> simpa [same] using known

theorem observe_knows {f : DecodedFieldbusFrame} {result : Option TripAnalysis}
    (done : s.observe profile f = .ok (after, result)) : after.manifest = s.manifest ∧
      ∀ node, after.lastInterlock node ≠ none →
        s.lastInterlock node ≠ none ∨ node ∈ s.manifest.nodes := by
  rcases observe_inv done with ⟨-, rfl, -⟩ |
    ⟨node, interlock, seq, ring, classified, -, -, rfl, -⟩
  · exact ⟨rfl, fun _ known => Or.inl known⟩
  · refine ⟨rfl, fun other known => (detectTrip_knows known).imp_right ?_⟩
    rintro rfl
    rcases classify_cases profile s.manifest f with assigned | ⟨-, overflow⟩
    · exact assigned_node (Except.ok.inj (assigned.symm.trans classified))
    · cases overflow.symm.trans classified

theorem feed_knows {packet : Packet} {result : Option TripAnalysis}
    (done : s.feed profile packet = .ok (after, result)) : after.manifest = s.manifest ∧
      ∀ node, after.lastInterlock node ≠ none →
        s.lastInterlock node ≠ none ∨ node ∈ s.manifest.nodes := by
  unfold CausalGraphObserver.feed at done
  rcases parseFrame_cases packet.1 packet.2 with ⟨proto, parsed⟩ | ⟨error, failed⟩
  · rw [parsed] at done
    exact observe_knows done
  · rw [failed] at done
    obtain ⟨rfl, -⟩ := Prod.mk.inj (Except.ok.inj done)
    exact ⟨rfl, fun _ known => Or.inl known⟩

end

theorem step_kept {JsonError : Type} {profile : Profile}
    {toJson : CausalTrace → Except JsonError String} {manifest : DependencyManifest}
    {run run' : ManifestRun} (kept : RunKept manifest run) {packet : Packet}
    (stepped : run.step profile toJson packet = .ok run') : RunKept manifest run' := by
  obtain ⟨rfl, rows, levels⟩ := kept
  obtain ⟨result, fed, counted⟩ := step_adds profile toJson run packet run' stepped
  obtain ⟨same, known⟩ := feed_knows fed
  have trips : run'.trips = run.trips + result.toList.length := congrArg RunCounts.trips counted
  have stored : run'.sink.len = run.sink.len + result.toList.length :=
    congrArg RunCounts.rows counted
  exact ⟨same, by omega, fun node some_ => (known node some_).elim (levels node) id⟩

theorem memory_bounded (profile : Profile) {source : Source UInt8} {opened : StreamingPcapSource}
    (accepted : StreamingPcapSource.new source = .ok opened) : MemoryBounded profile opened := by
  have roomy := new_roomy accepted
  constructor
  case reader =>
    intro τ ε body start state src visits
    obtain ⟨⟨⟨-, buffered⟩, scratch⟩, -⟩ :=
      visits_keep (fun _ => True) roomy trivial (fun _ _ _ _ _ _ => trivial) visits
    exact Nat.add_le_add buffered scratch
  case discovery =>
    intro ε disc src visits
    have fresh : PayloadsKept .new := fun _ _ held => by cases held
    refine held_disc (visits_keep PayloadsKept roomy fresh ?_ visits).2
    intro disc packet disc' kept small done
    rw [discoverFrame_eq] at done
    obtain rfl := Except.ok.inj done
    exact discovered_payloads kept small
  case preflight => exact fun _ => length_types_le _
  case run =>
    intro JsonError toJson manifest run src visits
    exact (visits_keep (RunKept manifest) roomy ⟨rfl, rfl, fun _ known => absurd rfl known⟩
      (fun _ _ _ kept _ => step_kept kept) visits).2
  case ends => exact fun done => eachFrame_visits .start done

theorem memory_bounded_down : ∃ opened,
    StreamingPcapSource.new ⟨Cell.downCapture, [.interrupted]⟩ = .ok opened ∧
      MemoryBounded .dev opened := by
  obtain ⟨opened, accepted⟩ : ∃ opened,
    StreamingPcapSource.new ⟨Cell.downCapture, [.interrupted]⟩ = .ok opened := ⟨_, rfl⟩
  exact ⟨opened, accepted, memory_bounded .dev accepted⟩

end Proof
end CausalWorks
