import CausalWorks.Causal

/-!
# The classic pcap format, as both readers decode it (`replay.rs`, `stream.rs`)
-/

namespace CausalWorks

def pcapMagicUsecLe : UInt32 := 0xa1b2c3d4
def pcapMagicUsecBe : UInt32 := 0xd4c3b2a1
def pcapMagicNsecLe : UInt32 := 0xa1b23c4d
def pcapMagicNsecBe : UInt32 := 0x4d3cb2a1
def pcapngMagic : UInt32 := 0x0a0d0d0a
def maxFrame : UInt32 := 256 * 1024

structure PcapFormat where
  swapped : Bool
  nanos : Bool
  deriving DecidableEq, Repr

inductive Magic where
  | classic (fmt : PcapFormat)
  | pcapng
  | other (magic : UInt32)
  deriving DecidableEq, Repr

def magicOf (magic : UInt32) : Magic :=
  if magic = pcapMagicUsecLe then .classic { swapped := false, nanos := false }
  else if magic = pcapMagicUsecBe then .classic { swapped := true, nanos := false }
  else if magic = pcapMagicNsecLe then .classic { swapped := false, nanos := true }
  else if magic = pcapMagicNsecBe then .classic { swapped := true, nanos := true }
  else if magic = pcapngMagic then .pcapng
  else .other magic

def u32FromLeBytes (b0 b1 b2 b3 : UInt8) : UInt32 :=
  b0.toUInt32 ||| b1.toUInt32 <<< 8 ||| b2.toUInt32 <<< 16 ||| b3.toUInt32 <<< 24

def u32FromBeBytes (b0 b1 b2 b3 : UInt8) : UInt32 := u32FromLeBytes b3 b2 b1 b0

def u32ToLeBytes (w : UInt32) : List UInt8 :=
  [w.toUInt8, (w >>> 8).toUInt8, (w >>> 16).toUInt8, (w >>> 24).toUInt8]

def u16ToLeBytes (w : UInt16) : List UInt8 := [w.toUInt8, (w >>> 8).toUInt8]

def rdU32 {ε : Type} (swapped : Bool) (buf : List UInt8) (off : Nat) : Except (Stop ε) UInt32 := do
  let b0 ← byteAt buf off
  let b1 ← byteAt buf (off + 1)
  let b2 ← byteAt buf (off + 2)
  let b3 ← byteAt buf (off + 3)
  return if swapped then u32FromBeBytes b0 b1 b2 b3 else u32FromLeBytes b0 b1 b2 b3

def tsNanos (profile : Profile) (nanos : Bool) (tsSec tsFrac : UInt64) : Except Fault UInt64 := do
  let sec ← profile.mulU64 tsSec 1000000000
  if nanos then profile.addU64 sec tsFrac
  else
    let frac ← profile.mulU64 tsFrac 1000
    profile.addU64 sec frac

theorem u32FromLeBytes_toNat (b0 b1 b2 b3 : UInt8) : (u32FromLeBytes b0 b1 b2 b3).toNat =
    b0.toNat + b1.toNat * 2 ^ 8 + b2.toNat * 2 ^ 16 + b3.toNat * 2 ^ 24 := by
  have lt0 := b0.toNat_lt
  have lt1 := b1.toNat_lt
  have lt2 := b2.toNat_lt
  have lt3 := b3.toNat_lt
  have fits1 : b1.toNat <<< 8 % 2 ^ 32 = b1.toNat <<< 8 := by
    rw [Nat.shiftLeft_eq]
    omega
  have fits2 : b2.toNat <<< 16 % 2 ^ 32 = b2.toNat <<< 16 := by
    rw [Nat.shiftLeft_eq]
    omega
  have fits3 : b3.toNat <<< 24 % 2 ^ 32 = b3.toNat <<< 24 := by
    rw [Nat.shiftLeft_eq]
    omega
  simp only [u32FromLeBytes, UInt32.toNat_or, UInt32.toNat_shiftLeft, UInt8.toNat_toUInt32,
    UInt32.reduceToNat, Nat.reduceMod, fits1, fits2, fits3]
  rw [or_shiftLeft _ b1.toNat lt0, or_shiftLeft _ b2.toNat (by omega),
    or_shiftLeft _ b3.toNat (by omega)]

theorem u32FromLeBytes_toLeBytes (w : UInt32) :
    u32FromLeBytes w.toUInt8 (w >>> 8).toUInt8 (w >>> 16).toUInt8 (w >>> 24).toUInt8 = w := by
  apply UInt32.toNat_inj.mp
  have bound := w.toNat_lt
  rw [u32FromLeBytes_toNat]
  simp only [UInt32.toNat_toUInt8, UInt32.toNat_shiftRight, Nat.shiftRight_eq_div_pow,
    UInt32.reduceToNat, Nat.reduceMod]
  omega

/-- Calls of `next_frame` up to the first that yields no frame: each frame with the reader after
it, and how that last call ended, unless `fuel` calls were not enough. -/
def drain {σ ε : Type} (nextFrame : σ → Except ε (Option Packet × σ)) :
    Nat → σ → List (Packet × σ) × Option (Except ε σ)
  | 0, _ => ([], none)
  | fuel + 1, reader =>
      match nextFrame reader with
      | .ok (some packet, reader) =>
          let (frames, last) := drain nextFrame fuel reader
          ((packet, reader) :: frames, last)
      | .ok (none, reader) => ([], some (.ok reader))
      | .error error => ([], some (.error error))

end CausalWorks
