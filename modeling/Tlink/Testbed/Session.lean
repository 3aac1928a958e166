import Mathlib.Algebra.Order.Group.Int
import Tlink.Lib.Words
import Tlink.Testbed.Reporter

/-!
A UDP test between a client and its server (`Client.cpp`, `Listener.cpp`, `Server.cpp`, `Reports.c`): the
client numbers its datagrams, ends with negative numbers until the server answers, and takes over the
statistics in the answer. What is computed in floating point is given by `Timing`.
-/
namespace Tlink.Testbed

open Words

def headerSeqno64b : Word := 0x08000000

/-! ### The number of a datagram -/

/-- `Client::WritePacketID`: the fields `id` and `id2` of `struct UDP_datagram`. -/
def writePacketID (buf : List Byte) (packetID : ℤ) : List Byte :=
  let bits := BitVec.ofInt 64 packetID
  store (store buf 0 (low bits)) 12 (high bits)

/-- The number of a datagram, of which an old server reads one word. -/
def datagramID (seqNo64b : Bool) (buf : List Byte) : BitVec 64 :=
  if seqNo64b then (load buf 0).setWidth 64 ||| (load buf 12).setWidth 64 <<< 32
  else (load buf 0).signExtend 64

/-- `Server::ReadPacketID`, which also tells whether this is the last datagram. The negation is one of 64
bits, so the least number stays as it is. -/
def readPacketID (seqNo64b : Bool) (buf : List Byte) : ℤ × Bool :=
  let packetID := datagramID seqNo64b buf
  if packetID.toInt < 0 then ((-packetID).toInt, true) else (packetID.toInt, false)

/-! ### The client -/

/-- How a write on the socket ends. -/
inductive Written where
  | done
  | retry
  | fatal
  deriving DecidableEq

/-- `Client::RunUDP`: the numbers of the datagrams that are written, and the next one. -/
def clientRunUDP (packetID : ℤ) : List Written → List ℤ × ℤ
  | [] => ([], packetID)
  | .done :: writes =>
    let (ids, next) := clientRunUDP (packetID + 1) writes
    (packetID :: ids, next)
  -- the number is used again
  | .retry :: writes => clientRunUDP packetID writes
  | .fatal :: _ => ([], packetID)

/-- `Client::FinishTrafficActions` writes the first of these, `Client::AwaitServerFinPacket` the others,
one for each time nothing came back. -/
def finIds (next : ℤ) (retries : ℕ) : List ℤ :=
  (List.range (retries + 1)).map fun k : ℕ => -(next + k)

/-! ### The server -/

/-- What `recvfrom` gives to the listener and `recvmsg` to the server. An empty datagram counts as
`closed`. -/
inductive Received where
  | datagram (bytes : List Byte) (truncated : Bool)
  | timeout
  | closed

/-- A datagram in a buffer that is used again and again. -/
def receiveInto (buf bytes : List Byte) : List Byte := bytes ++ buf.drop bytes.length

def noErrors : L2Errors := ⟨false, false, false⟩

/-- `Server::RunUDP`: the packets that are reported. The number is kept where nothing was read. -/
def serverRunUDP (seqNo64b : Bool) (mBuf : List Byte) (packetID : ℤ) :
    List Received → List ReportStruct
  | [] => []
  | .timeout :: later =>
    ⟨packetID, 0, .readTimeo, true, noErrors⟩ :: serverRunUDP seqNo64b mBuf packetID later
  | .closed :: _ => [⟨packetID, 0, .readSuccess, true, noErrors⟩]
  | .datagram bytes truncated :: later =>
    let mBuf := receiveInto mBuf bytes
    let (packetID, isLastPacket) := readPacketID seqNo64b mBuf
    let packet : ReportStruct :=
      ⟨packetID, bytes.length, if truncated then .readErrLen else .readSuccess, false, noErrors⟩
    if isLastPacket then [packet] else packet :: serverRunUDP seqNo64b mBuf packetID later

/-- What the listener leaves to the server thread: the first datagram, its length, and how its number is
read. -/
structure Accepted where
  seqNo64b : Bool
  mBuf : List Byte
  firstreadbytes : ℕ

/-- `Listener::udp_accept` where no other client is heard, and what has not been received yet. The flags
of a datagram follow `struct UDP_datagram`. -/
def udpAccept (isCompat : Bool) (mBuf : List Byte) : List Received → Option (Accepted × List Received)
  | [] => none
  | .datagram bytes _ :: later =>
    let mBuf := receiveInto mBuf bytes
    let seqNo64b := isCompat || decide (bytes.length < 4) || load mBuf 16 &&& headerSeqno64b != 0
    -- the end of a test that is over is drained
    if 0 < (datagramID seqNo64b mBuf).toInt then some (⟨seqNo64b, mBuf, bytes.length⟩, later)
    else udpAccept isCompat mBuf later
  | _ :: later => udpAccept isCompat mBuf later

/-- `Server::InitTrafficLoop` reports the first datagram, and `Server::RunUDP` the others. -/
def serverThread (accepted : Accepted) (later : List Received) : List ReportStruct :=
  let (packetID, isLastPacket) := readPacketID accepted.seqNo64b accepted.mBuf
  let packet : ReportStruct :=
    { ReportStruct.zeroed with packetID := packetID, packetLen := accepted.firstreadbytes }
  if isLastPacket then [packet]
  else packet :: serverRunUDP accepted.seqNo64b accepted.mBuf packetID later

/-! ### The answer of the server -/

def headerVersion1 : Word := 0x80000000
def serverHeaderExtend : Word := 0x40000000

/-- The words that come from times. -/
structure Timing where
  stopSec : Word
  stopUsec : Word
  jitter1 : Word
  jitter2 : Word
  extend : List Word
  /-- `struct server_hdr_extension` -/
  length_extend : extend.length = 15

/-- `struct server_hdr` as `write_UDP_AckFIN` fills it in. -/
def serverHdr (stats : TransferInfo) (enhanced : Bool) (timing : Timing) : List Word :=
  let flags := headerVersion1 ||| (if enhanced then serverHeaderExtend else 0) ||| headerSeqno64b
  let bytes := BitVec.ofInt 64 stats.cntBytes
  let error := BitVec.ofInt 64 stats.cntError
  let outorder := BitVec.ofInt 64 stats.cntOutofOrder
  let datagrams := BitVec.ofInt 64 stats.cntDatagrams
  [flags, high bytes, low bytes, timing.stopSec, timing.stopUsec, low error, low outorder,
    low datagrams, timing.jitter1, timing.jitter2] ++ timing.extend ++
    [high error, high outorder, high datagrams]

def ackpacketLength : ℕ := 128

/-- The buffer of the answer, with room for what comes in. -/
def ackPacket (stats : TransferInfo) (enhanced : Bool) (timing : Timing) (len : ℕ) : List Byte :=
  List.replicate 16 0 ++ pack (serverHdr stats enhanced timing) ++
    List.replicate (max (ackpacketLength * 2) (len * 2) - ackpacketLength) 0

/-- What the server hears after it has sent its answer. -/
inductive Heard where
  | silence
  | datagram (bytes : List Byte)
  | failed (fatal : Bool)

/-- The loop of `write_UDP_AckFIN`: what is sent, and whether the client seems to be content. The buffer
that is sent is the one that is read into. -/
def ackLoop : ℕ → List Byte → List Heard → List (List Byte) × Bool
  | 0, _, _ => ([], false)
  | count + 1, buf, heard =>
    let answer := buf.take ackpacketLength
    match heard with
    | [] => ([answer], false)
    | .silence :: _ => ([answer], true)
    | .datagram bytes :: later =>
      let (sent, success) := ackLoop count (receiveInto buf (bytes.take buf.length)) later
      (answer :: sent, success)
    | .failed fatal :: later =>
      if fatal then ([answer], false)
      else
        let (sent, success) := ackLoop count buf later
        (answer :: sent, success)

def tryCount : ℕ := 10

def writeUDPAckFIN (stats : TransferInfo) (enhanced : Bool) (timing : Timing) (len : ℕ)
    (heard : List Heard) : List (List Byte) × Bool :=
  ackLoop (tryCount - 1) (ackPacket stats enhanced timing len) heard

/-- The counters in `InitServerRelayUDPReport`. -/
def serverRelay (buf : List Byte) : TransferInfo :=
  -- the header follows `struct UDP_datagram`
  let word := fun k => load buf (16 + 4 * k)
  let long := fun upper lower =>
    ((word upper).setWidth 64 <<< 32 + (word lower).setWidth 64 : BitVec 64).toInt
  let seqno64b := word 0 &&& headerSeqno64b ≠ 0
  { TransferInfo.zeroed with
    cntBytes := long 1 2
    cntError := if seqno64b then long 25 5 else (word 5).toNat
    cntOutofOrder := if seqno64b then long 26 6 else (word 6).toNat
    cntDatagrams := if seqno64b then long 27 7 else (word 7).toNat }

end Tlink.Testbed
