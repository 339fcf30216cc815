import CausalWorks.Ingest
import CausalWorks.Lib.Keyed
import Mathlib.Algebra.NeZero

/-!
# The discovery pass (`discovery.rs`)

Counters and sums are numbers without a bound: a capture would need `2 ^ 64` frames to wrap one.
-/

namespace CausalWorks
open Keyed (Table)

/-- A histogram of nanoseconds with `SUB` linear buckets in each band of one bit length. -/
structure LogHistogram (SUB : Nat) where
  buckets : Vector Nat (64 * SUB)
  count : Nat
  min : UInt64
  max : UInt64
  sum : Nat
  deriving DecidableEq, Repr

namespace LogHistogram
variable {SUB : Nat}

def new : LogHistogram SUB :=
  { buckets := .replicate (64 * SUB) 0, count := 0, min := 0xffffffffffffffff, max := 0, sum := 0 }

def index (SUB : Nat) (value : UInt64) : Nat :=
  if value = 0 then 0
  else
    let band := value.toNat.log2 + 1
    let bandBase := 1 <<< (band - 1)
    let offset := value.toNat - bandBase
    let sub := Nat.min (offset * SUB / bandBase) (SUB - 1)
    (band - 1) * SUB + sub

theorem index_lt [positive : NeZero SUB] (value : UInt64) : index SUB value < 64 * SUB := by
  have some_ : 0 < SUB := Nat.pos_of_ne_zero positive.out
  unfold index
  split
  · omega
  · have short : value.toNat.log2 < 64 := by
      rw [Nat.log2_lt (by rwa [ne_eq, ← UInt64.toNat_zero, UInt64.toNat_inj])]
      exact value.toNat_lt
    have sub : ∀ n, Nat.min n (SUB - 1) ≤ SUB - 1 := fun n => Nat.min_le_right n _
    have band : (value.toNat.log2 + 1) * SUB ≤ 64 * SUB := Nat.mul_le_mul_right _ (by omega)
    rw [Nat.succ_mul] at band
    simp only [Nat.add_sub_cancel]
    have here := sub ((value.toNat - 1 <<< value.toNat.log2) * SUB / 1 <<< value.toNat.log2)
    omega

def record [NeZero SUB] (self : LogHistogram SUB) (value : UInt64) : LogHistogram SUB :=
  have bound : index SUB value < 64 * SUB := index_lt value
  { buckets := self.buckets.set (index SUB value) (self.buckets[index SUB value] + 1)
    count := self.count + 1
    sum := self.sum + value.toNat
    min := if value < self.min then value else self.min
    max := if self.max < value then value else self.max }

def bucketLower (profile : Profile) (SUB idx : Nat) : Except Fault UInt64 :=
  let band := idx / SUB
  let sub := idx % SUB
  if band = 0 ∧ sub = 0 then .ok 0
  else do
    let bandBase ← profile.shlU64 1 band
    let width ← profile.mulU64 (.ofNat sub) bandBase
    profile.addU64 bandBase (width / .ofNat SUB)

def getMin (self : LogHistogram SUB) : UInt64 := if self.count = 0 then 0 else self.min

def mean (self : LogHistogram SUB) : UInt64 :=
  if self.count = 0 then 0 else .ofNat (self.sum / self.count)

/-- The `for (i, &c) in ..` loop of `quantile`: where the running sum reaches the target. -/
def reached (target : Nat) : Nat → List (Nat × Nat) → Option Nat
  | _, [] => none
  | cum, (c, i) :: buckets =>
      if target ≤ cum + c then some i else reached target (cum + c) buckets

def bucketOf (self : LogHistogram SUB) (target : Nat) : Option Nat :=
  reached target 0 self.buckets.toList.zipIdx

def estimate (profile : Profile) (self : LogHistogram SUB) (target : Nat) : Except Fault UInt64 :=
  match self.bucketOf target with
  | some i => do
      let est ← bucketLower profile SUB i
      clampU64 est self.getMin self.max
  | none => .ok self.max

def target (self : LogHistogram SUB) (q : Float) : Nat :=
  let target := (q * (UInt64.ofNat self.count).toFloat).ceil.toUInt64
  Nat.min (Nat.max target.toNat 1) self.count

def quantile (profile : Profile) (self : LogHistogram SUB) (q : Float) : Except Fault UInt64 :=
  if self.count = 0 then .ok 0 else self.estimate profile (self.target q)

end LogHistogram

inductive StreamKey where
  | profinet (frameId : UInt16)
  | udpPort (dstPort : UInt16)
  | s7comm (port : UInt16)
  deriving DecidableEq, Repr

/-- The `for i in 0..n` loop, over the bytes that all three have. -/
def orDifferences : List UInt8 → List UInt8 → List UInt8 → List UInt8
  | m :: mask, a :: first, b :: payload => (m ||| (a ^^^ b)) :: orDifferences mask first payload
  | mask, _, _ => mask

theorem length_orDifferences (mask first payload : List UInt8) :
    (orDifferences mask first payload).length = mask.length := by
  induction mask, first, payload using orDifferences.induct with
  | case1 m mask a first b payload ih => simp only [orDifferences, List.length_cons, ih]
  | case2 mask first payload short => rw [orDifferences.eq_2 _ _ _ short]

structure StreamProfile where
  key : StreamKey
  interarrival : LogHistogram 8
  lastTsNs : Option UInt64
  firstPayload : List UInt8
  xorMask : List UInt8
  aligned : xorMask.length = firstPayload.length
  deriving DecidableEq, Repr

namespace StreamProfile

def new (key : StreamKey) : StreamProfile :=
  { key, interarrival := .new, lastTsNs := none, firstPayload := [], xorMask := [], aligned := rfl }

def recordGap (self : StreamProfile) (tsNs : UInt64) : StreamProfile :=
  match self.lastTsNs with
  | some prev => { self with interarrival := self.interarrival.record (saturatingSub tsNs prev) }
  | none => self

def comparePayload (self : StreamProfile) : Option (List UInt8) → StreamProfile
  | none => self
  | some p =>
      if self.firstPayload.isEmpty then
        { self with firstPayload := p, xorMask := .replicate p.length 0
                    aligned := List.length_replicate }
      else
        { self with xorMask := orDifferences self.xorMask self.firstPayload p
                    aligned := (length_orDifferences _ _ _).trans self.aligned }

def observe (self : StreamProfile) (tsNs : UInt64) (profinetPayload : Option (List UInt8)) :
    StreamProfile :=
  { self.recordGap tsNs with lastTsNs := some tsNs }.comparePayload profinetPayload

def togglingBits (self : StreamProfile) : List (Nat × UInt8) :=
  self.xorMask.zipIdx.flatMap fun (m, byteI) =>
    ([0, 1, 2, 3, 4, 5, 6, 7].filter fun bit : UInt8 => m &&& (1 <<< bit) != 0).map (byteI, ·)

end StreamProfile

def payloadFrom {ε : Type} (buf : List UInt8) (off : Nat) : Except (Stop ε) (List UInt8) := do
  let payloadStart := off + 2
  if buf.length ≤ payloadStart then return [] else
  suffixAt buf payloadStart

def profinetIoPayload {ε : Type} (buf : List UInt8) : Except (Stop ε) (List UInt8) := do
  if buf.length < 14 then return [] else
  let et ← u16At buf 12
  if et = 0x8100 then
    if buf.length < 18 then return [] else
    -- The inner EtherType is read, but not looked at.
    let _ ← u16At buf 16
    payloadFrom buf 18
  else payloadFrom buf 14

def dstPortFrom {ε : Type} (buf : List UInt8) (et : UInt16) (off : Nat) :
    Except (Stop ε) (Option UInt16) := do
  if et ≠ 0x0800 ∨ buf.length < off + 20 then return none else
  let first ← byteAt buf off
  let ihl := (first &&& 0x0f).toNat * 4
  if buf.length < off + ihl + 4 then return none else
  let uo := off + ihl
  let port ← u16At buf (uo + 2)
  return some port

def udpDstPort {ε : Type} (buf : List UInt8) : Except (Stop ε) (Option UInt16) := do
  if buf.length < 14 then return none else
  let et ← u16At buf 12
  if et = 0x8100 then
    if buf.length < 18 then return none else
    let et ← u16At buf 16
    dstPortFrom buf et 18
  else dstPortFrom buf et 14

structure UnclassifiedTally where
  byEthertype : Table UInt16 Nat
  malformed : Nat

structure DiscoveryEngine where
  streams : Table StreamKey StreamProfile
  unclassified : UnclassifiedTally
  totalFrames : Nat

namespace DiscoveryEngine

def new : DiscoveryEngine :=
  { streams := .empty, unclassified := ⟨.empty, 0⟩, totalFrames := 0 }

def streamOf {ε : Type} (frame : DecodedFieldbusFrame) :
    Except (Stop ε) (StreamKey × Option (List UInt8)) :=
  match frame.proto with
  | .profinetIrt frameId _ _ => do
      let payload ← profinetIoPayload frame.raw
      return (.profinet frameId, some payload)
  | .ros2Udp topicPort _ => return (.udpPort topicPort, none)
  | .fanucUdp _ _ _ => do
      let port ← udpDstPort frame.raw
      return (.udpPort (port.getD 0), none)
  | .s7commArrival port => return (.s7comm port, none)

def observe {ε : Type} (self : DiscoveryEngine) (frame : DecodedFieldbusFrame) :
    Except (Stop ε) DiscoveryEngine := do
  let (key, payload) ← streamOf frame
  return { self with
    totalFrames := self.totalFrames + 1
    streams := self.streams.upsert key (.new key) (·.observe frame.tapTsNs payload) }

def observeUnclassified (self : DiscoveryEngine) (ethertype : Option UInt16) : DiscoveryEngine :=
  match ethertype with
  | some et =>
      { self with totalFrames := self.totalFrames + 1
                  unclassified.byEthertype := self.unclassified.byEthertype.upsert et 0 (· + 1) }
  | none =>
      { self with totalFrames := self.totalFrames + 1
                  unclassified.malformed := self.unclassified.malformed + 1 }

end DiscoveryEngine

end CausalWorks
