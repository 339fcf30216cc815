import CausalWorks.Machine

/-!
# Frame parsing (`ingest.rs`)

`parseFrame` over the bytes of a captured Ethernet frame. Reads that Rust would abort on (an index
or a slice past the end) are faults here, so the bounds checks are part of what is proved.
-/

namespace CausalWorks

def ethertypeProfinet : UInt16 := 0x8892
def ethertypeIpv4 : UInt16 := 0x0800
def ethertypeVlan : UInt16 := 0x8100
def ethHdrLen : Nat := 14
def vlanTagLen : Nat := 4
def ipv4ProtoUdp : UInt8 := 17
def ipv4ProtoTcp : UInt8 := 6
def s7commTcpPort : UInt16 := 102
def fanucPosePort : UInt16 := 60008

inductive ParseError where
  | truncated (length : Nat)
  | unhandledEtherType (ethertype : UInt16)
  | badIpv4
  | badUdp
  | shortPayload (proto : String) (need have_ : Nat)
  deriving DecidableEq, Repr

/-- A 32-bit float that is read and never computed with, kept as its bit pattern. -/
abbrev F32Bits := UInt32

inductive IndustrialProtocol where
  | profinetIrt (frameId : UInt16) (interlockBit : Bool) (rawStatusByte : UInt8)
  | ros2Udp (topicPort payloadLen : UInt16)
  | fanucUdp (xMm yMm zMm : F32Bits)
  | s7commArrival (port : UInt16)
  deriving DecidableEq, Repr

structure DecodedFieldbusFrame where
  tapTsNs : UInt64
  proto : IndustrialProtocol
  raw : List UInt8
  deriving DecidableEq, Repr

abbrev Parse := Except (Stop ParseError)

def readU16 (buf : List UInt8) (off : Nat) : Parse UInt16 := do
  let hi ← byteAt buf off
  let lo ← byteAt buf (off + 1)
  return hi.toUInt16 <<< 8 ||| lo.toUInt16

def readF32 (buf : List UInt8) (off : Nat) : Parse F32Bits := do
  let b0 ← byteAt buf off
  let b1 ← byteAt buf (off + 1)
  let b2 ← byteAt buf (off + 2)
  let b3 ← byteAt buf (off + 3)
  return b0.toUInt32 ||| b1.toUInt32 <<< 8 ||| b2.toUInt32 <<< 16 ||| b3.toUInt32 <<< 24

def fail {α : Type} (error : ParseError) : Parse α := .error (.err error)

def parseProfinet (tapTsNs : UInt64) (buf : List UInt8) (l3Offset : Nat) :
    Parse DecodedFieldbusFrame := do
  let need := l3Offset + 3
  if buf.length < need then fail (.shortPayload "ProfinetIrt" need buf.length) else
  let frameId ← readU16 buf l3Offset
  let rawStatusByte ← byteAt buf (l3Offset + 2)
  let interlockBit := rawStatusByte &&& 0x01 != 0
  return ⟨tapTsNs, .profinetIrt frameId interlockBit rawStatusByte, buf⟩

def parseTcp (tapTsNs : UInt64) (buf : List UInt8) (l4Off : Nat) : Parse DecodedFieldbusFrame := do
  if buf.length < l4Off + 4 then fail .badIpv4 else
  let srcPort ← readU16 buf l4Off
  let dstPort ← readU16 buf (l4Off + 2)
  if srcPort = s7commTcpPort ∨ dstPort = s7commTcpPort then
    let port := if dstPort = s7commTcpPort then dstPort else srcPort
    return ⟨tapTsNs, .s7commArrival port, buf⟩
  else fail (.unhandledEtherType ethertypeIpv4)

def parseUdp (tapTsNs : UInt64) (buf : List UInt8) (udpOff : Nat) : Parse DecodedFieldbusFrame := do
  let dstPort ← readU16 buf (udpOff + 2)
  let udpLen ← readU16 buf (udpOff + 4)
  if udpLen.toNat < 8 ∨ buf.length < udpOff + udpLen.toNat then fail .badUdp else
  let payloadOff := udpOff + 8
  let payloadLen := saturatingSubU16 udpLen 8
  if dstPort = fanucPosePort then
    if payloadLen.toNat < 12 then fail (.shortPayload "FanucUdp" 12 payloadLen.toNat) else
    let xMm ← readF32 buf payloadOff
    let yMm ← readF32 buf (payloadOff + 4)
    let zMm ← readF32 buf (payloadOff + 8)
    return ⟨tapTsNs, .fanucUdp xMm yMm zMm, buf⟩
  else
    return ⟨tapTsNs, .ros2Udp dstPort payloadLen, buf⟩

def parseIpv4Udp (tapTsNs : UInt64) (buf : List UInt8) (ipOff : Nat) :
    Parse DecodedFieldbusFrame := do
  if buf.length < ipOff + 20 then fail .badIpv4 else
  let first ← byteAt buf ipOff
  let ihlWords := (first &&& 0x0F).toNat
  let ipHdrLen := ihlWords * 4
  if ihlWords < 5 ∨ buf.length < ipOff + ipHdrLen + 8 then fail .badIpv4 else
  let proto ← byteAt buf (ipOff + 9)
  let l4Off := ipOff + ipHdrLen
  if proto = ipv4ProtoTcp then parseTcp tapTsNs buf l4Off
  else if proto ≠ ipv4ProtoUdp then fail (.unhandledEtherType ethertypeIpv4)
  else parseUdp tapTsNs buf l4Off

def parseEthertype (tapTsNs : UInt64) (buf : List UInt8) (ethertype : UInt16) (l3Offset : Nat) :
    Parse DecodedFieldbusFrame :=
  if ethertype = ethertypeProfinet then parseProfinet tapTsNs buf l3Offset
  else if ethertype = ethertypeIpv4 then parseIpv4Udp tapTsNs buf l3Offset
  else fail (.unhandledEtherType ethertype)

def parseFrame (tapTsNs : UInt64) (buf : List UInt8) : Parse DecodedFieldbusFrame := do
  if buf.length < ethHdrLen then fail (.truncated buf.length) else
  let ethertype ← readU16 buf 12
  if ethertype = ethertypeVlan then
    if buf.length < ethHdrLen + vlanTagLen then fail (.truncated buf.length) else
    let inner ← readU16 buf 16
    parseEthertype tapTsNs buf inner (ethHdrLen + vlanTagLen)
  else parseEthertype tapTsNs buf ethertype ethHdrLen

end CausalWorks
