import CausalWorks.DemoRun

/-!
# The synthetic fixture (`bin/harness.rs`)

The frame builders of `gen-fixture` and the capture that it writes.
-/

namespace CausalWorks
open Demo

def eth (ethertype : UInt16) : List UInt8 :=
  ((List.replicate 14 (0 : UInt8)).set 12 (ethertype >>> 8).toUInt8).set 13
    (ethertype &&& 0xff).toUInt8

def resize (v : List UInt8) (len : Nat) (value : UInt8) : List UInt8 :=
  v.take len ++ List.replicate (len - v.length) value

def profinetFrame (frameId : UInt16) (interlock : Bool) : List UInt8 :=
  resize (eth 0x8892 ++ (u16ToLeBytes frameId).reverse ++ [if interlock then 0x01 else 0x00]) 60 0

def udpFrame (profile : Profile) (dstPort : UInt16) (payload : List UInt8) :
    Except Fault (List UInt8) := do
  let ip := ((List.replicate 20 (0 : UInt8)).set 0 0x45).set 9 17
  let udpLen ← profile.addU16 8 (UInt16.ofNat payload.length)
  let udp := ((((List.replicate 8 (0 : UInt8)).set 2 (dstPort >>> 8).toUInt8).set 3
    (dstPort &&& 0xff).toUInt8).set 4 (udpLen >>> 8).toUInt8).set 5 (udpLen &&& 0xff).toUInt8
  return eth 0x0800 ++ ip ++ udp ++ payload

def fanucFrame (profile : Profile) : Except Fault (List UInt8) :=
  udpFrame profile fanucPosePort
    (u32ToLeBytes 0x42c80000 ++ u32ToLeBytes 0x43480000 ++ u32ToLeBytes 0x42480000)

def ros2Frame (profile : Profile) : Except Fault (List UInt8) :=
  udpFrame profile amrPort (List.replicate 32 0)

def synthFixture (profile : Profile) : Except Fault (List UInt8) := do
  let ms : UInt64 := 1000000
  let ros2 ← ros2Frame profile
  let fanuc ← fanucFrame profile
  writePcap [
    (10 * ms, none, ros2),
    (12 * ms, none, fanuc),
    (14 * ms, none, profinetFrame 0x0002 true),
    (20 * ms, some 20, fanuc),
    (30 * ms, none, ros2),
    (40 * ms, none, fanuc),
    (42 * ms, none, profinetFrame 0x0002 false)]

end CausalWorks
