import CausalWorks.Harness
import CausalWorks.Proof.Readers

/-!
# What a capture holds

The frames of a capture as a derivation over its bytes. Both readers, and the loops of the command
line tool, follow it to its end.
-/

namespace CausalWorks

def Front.isRecord : Front → Bool
  | .record _ _ _ => true
  | _ => false

def Front.isCut : Front → Bool
  | .cutHeader | .cutBody _ _ => true
  | _ => false

/-- The frames at the front of `bytes`, each with whether it lost bytes to the snapshot length, and
what stands after the last of them. -/
inductive Reads (fmt : PcapFormat) : List UInt8 → List (Packet × Bool) → Front → Prop
  | stop {bytes : List UInt8} (last : (front fmt bytes).isRecord = false) :
      Reads fmt bytes [] (front fmt bytes)
  | next {bytes rest : List UInt8} {packet : Packet} {cut : Bool} {frames : List (Packet × Bool)}
      {ending : Front} (is : front fmt bytes = .record packet cut rest)
      (reads : Reads fmt rest frames ending) : Reads fmt bytes ((packet, cut) :: frames) ending

def twoByteCapture : List UInt8 :=
  [0xd4, 0xc3, 0xb2, 0xa1] ++ List.replicate 28 0 ++ [2, 0, 0, 0, 2, 0, 0, 0, 7, 8]

namespace Proof
variable {profile : Profile} {fmt : PcapFormat} {bytes : List UInt8} {read truncated : Nat}
  {frames : List (Packet × Bool)} {ending : Front}

theorem reads_total (fmt : PcapFormat) (bytes : List UInt8) :
    ∃ frames ending, Reads fmt bytes frames ending := by
  induction size : bytes.length using Nat.strong_induction_on generalizing bytes with
  | _ n ih =>
    cases is : front fmt bytes with
    | record packet cut rest =>
        have shorter := front_record is
        obtain ⟨frames, ending, reads⟩ := ih rest.length (by omega) rest rfl
        exact ⟨_, _, .next is reads⟩
    | finished | cutHeader | tooLong _ | cutBody _ _ =>
        exact ⟨_, _, .stop (by rw [is]; rfl)⟩

theorem reads_length (reads : Reads fmt bytes frames ending) :
    16 * frames.length ≤ bytes.length := by
  induction reads with
  | stop => exact Nat.zero_le _
  | next is _ ih =>
      have shorter := front_record is
      rw [List.length_cons]
      omega

theorem front_finished (is : front fmt bytes = .finished) : bytes = [] := by
  unfold front at is
  simp only at is
  split at is
  · assumption
  split at is
  · cases is
  split at is
  · cases is
  split at is
  · cases is
  · cases is

theorem stream_opens (long : 24 ≤ bytes.length)
    (magic : magicOf (wordAt false bytes 0) = .classic fmt) (schedule : List Delivery.Response) :
    ∃ s, StreamingPcapSource.new ⟨bytes, schedule⟩ = .ok s ∧
      StreamAt s fmt (bytes.drop 24) 0 0 := by
  rcases new_cases { items := bytes, schedule } with ⟨short, -⟩ | ⟨-, new⟩
  · exact absurd short (Nat.not_lt.mpr long)
  · simpa only [magic] using new

theorem stream_opened {schedule : List Delivery.Response} {s : StreamingPcapSource}
    (accepted : StreamingPcapSource.new ⟨bytes, schedule⟩ = .ok s) :
    ∃ fmt, 24 ≤ bytes.length ∧ magicOf (wordAt false bytes 0) = .classic fmt ∧
      StreamAt s fmt (bytes.drop 24) 0 0 := by
  rcases new_cases { items := bytes, schedule } with ⟨-, failed⟩ | ⟨long, new⟩
  · rw [failed] at accepted
    cases accepted
  cases magic : magicOf (wordAt false bytes 0) with
  | pcapng | other =>
      simp only [magic] at new
      rw [new] at accepted
      cases accepted
  | classic fmt =>
      simp only [magic] at new
      obtain ⟨s', built, at_⟩ := new
      obtain rfl : s' = s := Except.ok.inj (built.symm.trans accepted)
      exact ⟨fmt, long, rfl, at_⟩

theorem stream_none {s after : StreamingPcapSource}
    (done : s.nextFrame profile = .ok (none, after)) :
    after.recordsRead = s.recordsRead ∧ after.truncatedRecords = s.truncatedRecords := by
  unfold StreamingPcapSource.nextFrame at done
  obtain ⟨⟨state, rhdr, rdr⟩, -, done⟩ := bind_ok done
  cases state with
  | eof | cutShort =>
      cases done
      exact ⟨rfl, rfl⟩
  | full =>
      obtain ⟨tsSec, -, done⟩ := bind_ok done
      obtain ⟨tsFrac, -, done⟩ := bind_ok done
      obtain ⟨inclLen, -, done⟩ := bind_ok done
      obtain ⟨origLen, -, done⟩ := bind_ok done
      split at done
      · cases done
      obtain ⟨⟨whole, filled, rdr'⟩, -, done⟩ := bind_ok done
      simp only at done
      split at done
      · cases done
        exact ⟨rfl, rfl⟩
      · obtain ⟨tsNs, -, done⟩ := bind_ok done
        cases done

structure Finished (s : StreamingPcapSource) (ending : Front) (read truncated : Nat) : Prop where
  recordsRead : s.recordsRead = read
  truncatedRecords : s.truncatedRecords = truncated
  endedMidRecord : s.endedMidRecord = ending.isCut

def StreamEnds (read truncated : Nat) (ending : Front)
    (last : Option (Except (Stop StreamPcapError) StreamingPcapSource)) : Prop :=
  match ending with
  | .tooLong length => last = some (.error (.err (.implausibleLength length)))
  | .record _ _ _ => False
  | .finished | .cutHeader | .cutBody _ _ =>
      ∃ s, last = some (.ok s) ∧ Finished s ending read truncated

theorem countP_cut (cut : Bool) (packet : Packet) (frames : List (Packet × Bool))
    (truncated : Nat) : (if cut then truncated + 1 else truncated) + frames.countP (·.2) =
      truncated + ((packet, cut) :: frames).countP (·.2) := by
  cases cut with
  | false => simp
  | true =>
      simp only [if_true, List.countP_cons]
      omega

variable (profile) in
theorem stream_drain {s : StreamingPcapSource} (reads : Reads fmt bytes frames ending)
    (at_ : StreamAt s fmt bytes read truncated) (fuel : Nat) (enough : frames.length < fuel) :
    (drain (StreamingPcapSource.nextFrame profile) fuel s).1.map Prod.fst =
        frames.map Prod.fst ∧
      StreamEnds (read + frames.length) (truncated + frames.countP (·.2)) ending
        (drain (StreamingPcapSource.nextFrame profile) fuel s).2 := by
  induction reads generalizing s read truncated fuel with
  | @stop bytes last =>
      obtain ⟨fuel, rfl⟩ : ∃ n, fuel = n + 1 := ⟨fuel - 1, by omega⟩
      have step := stream_step profile at_
      have counted : ∀ after, s.nextFrame profile = .ok (none, after) →
          after.endedMidRecord = (front fmt bytes).isCut →
            Finished after (front fmt bytes) read truncated := by
        intro after done flag
        obtain ⟨records, short⟩ := stream_none done
        exact ⟨records.trans at_.recordsRead, short.trans at_.truncatedRecords, flag⟩
      simp only [drain, List.length_nil, List.countP_nil, Nat.add_zero]
      cases is : front fmt bytes with
      | record => rw [is] at last; cases last
      | tooLong length =>
          rw [is] at step
          rw [show s.nextFrame profile = _ from step]
          exact ⟨rfl, rfl⟩
      | finished | cutHeader | cutBody =>
          rw [is] at step counted
          obtain ⟨after, done, flag⟩ := step
          rw [done]
          exact ⟨rfl, after, rfl, counted after done flag⟩
  | @next bytes rest packet cut frames ending is reads ih =>
      obtain ⟨fuel, rfl⟩ : ∃ n, fuel = n + 1 := ⟨fuel - 1, by omega⟩
      have step := stream_step profile at_
      rw [is] at step
      obtain ⟨after, done, at'⟩ := step
      rw [List.length_cons] at enough
      obtain ⟨packets, ends⟩ := ih at' fuel (by omega)
      rw [countP_cut cut packet, Nat.add_assoc, Nat.add_comm 1] at ends
      simp only [drain, done]
      exact ⟨congrArg (packet :: ·) packets, ends⟩

variable (profile) in
theorem eager_drain {e : PcapReplaySource} (reads : Reads fmt bytes frames ending)
    (finished : ending = .finished) (at_ : EagerAt e fmt bytes read truncated) (fuel : Nat)
    (enough : frames.length < fuel) :
    (drain (PcapReplaySource.nextFrame profile) fuel e).1.map Prod.fst = frames.map Prod.fst ∧
      ∃ after, (drain (PcapReplaySource.nextFrame profile) fuel e).2 = some (.ok after) ∧
        after.cursor = after.data.length ∧ after.recordsRead = read + frames.length ∧
        after.truncatedRecords = truncated + frames.countP (·.2) := by
  induction reads generalizing e read truncated fuel with
  | @stop bytes last =>
      obtain ⟨fuel, rfl⟩ : ∃ n, fuel = n + 1 := ⟨fuel - 1, by omega⟩
      have step := eager_step profile at_
      rw [finished] at step
      have emptied : e.data.drop e.cursor = [] := at_.rest.trans (front_finished finished)
      have atEnd : e.cursor = e.data.length :=
        Nat.le_antisymm at_.inside (List.drop_eq_nil_iff.mp emptied)
      simp only [drain, show e.nextFrame profile = .ok (none, e) from step]
      exact ⟨rfl, e, rfl, atEnd, at_.recordsRead, at_.truncatedRecords⟩
  | @next bytes rest packet cut frames ending is reads ih =>
      obtain ⟨fuel, rfl⟩ : ∃ n, fuel = n + 1 := ⟨fuel - 1, by omega⟩
      have step := eager_step profile at_
      rw [is] at step
      obtain ⟨after, done, at'⟩ := step
      rw [List.length_cons] at enough
      obtain ⟨packets, last, ends, atEnd, records, short⟩ := ih finished at' fuel (by omega)
      rw [countP_cut cut packet] at short
      simp only [drain, done]
      refine ⟨congrArg (packet :: ·) packets, last, ends, atEnd, ?_, short⟩
      rw [records, List.length_cons]
      omega

variable (profile) in
theorem eachFrame_eq {τ ε : Type} (body : τ → Packet → Except (Stop ε) τ)
    {s : StreamingPcapSource} (reads : Reads fmt bytes frames ending)
    (at_ : StreamAt s fmt bytes read truncated) (fuel : Nat) (enough : frames.length < fuel)
    (state : τ) : ∃ after, eachFrame profile body fuel state s =
        ((frames.map Prod.fst).foldlM body state >>= fun state => .ok (state, after)) ∧
      Finished after ending (read + frames.length) (truncated + frames.countP (·.2)) := by
  induction reads generalizing s read truncated fuel state with
  | @stop bytes last =>
      obtain ⟨fuel, rfl⟩ : ∃ n, fuel = n + 1 := ⟨fuel - 1, by omega⟩
      have step := stream_step profile at_
      simp only [eachFrame, List.length_nil, List.countP_nil, Nat.add_zero, List.map_nil,
        List.foldlM_nil]
      cases is : front fmt bytes with
      | record => rw [is] at last; cases last
      | tooLong length =>
          rw [is] at step
          rw [show s.nextFrame profile = _ from step]
          exact ⟨s, rfl, at_.recordsRead, at_.truncatedRecords, at_.unfinished⟩
      | finished | cutHeader | cutBody =>
          rw [is] at step
          obtain ⟨after, done, flag⟩ := step
          obtain ⟨records, short⟩ := stream_none done
          rw [done]
          exact ⟨after, rfl, records.trans at_.recordsRead, short.trans at_.truncatedRecords, flag⟩
  | @next bytes rest packet cut frames ending is reads ih =>
      obtain ⟨fuel, rfl⟩ : ∃ n, fuel = n + 1 := ⟨fuel - 1, by omega⟩
      have step := stream_step profile at_
      rw [is] at step
      obtain ⟨next, done, at'⟩ := step
      rw [List.length_cons] at enough
      simp only [eachFrame, done, List.map_cons, List.foldlM_cons, bind_assoc]
      rw [← countP_cut cut packet, List.length_cons, Nat.add_comm frames.length, ← Nat.add_assoc]
      cases result : body state packet with
      | ok state =>
          obtain ⟨after, looped, finished⟩ := ih at' fuel (by omega) state
          exact ⟨after, looped, finished⟩
      | error stop =>
          obtain ⟨after, -, finished⟩ := ih at' fuel (by omega) state
          exact ⟨after, rfl, finished⟩

end Proof
end CausalWorks
