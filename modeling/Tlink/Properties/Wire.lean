import Mathlib.Algebra.Order.Group.Int
import Tlink.Testbed.Session

/-!
# What survives the wire

The number of a datagram and the statistics of the server are split into words. A server that knows both
words of a number gets it back, one that reads a single word gets back what fits into it. The statistics
reach the client in the answers sent before the server hears from it again; after that the server sends
back what it heard.
-/
namespace Tlink.Properties

open Tlink.Testbed Words

/-! ### Numbers of datagrams -/

theorem toInt_ofInt_long (n : ℤ) (lower : -2 ^ 63 ≤ n) (upper : n < 2 ^ 63) :
    (BitVec.ofInt 64 n).toInt = n := by
  rw [BitVec.toInt_ofInt]
  exact Int.bmod_eq_of_le (by omega) (by omega)

theorem length_writePacketID (buf : List Byte) (room : 16 ≤ buf.length) (id : ℤ) :
    (writePacketID buf id).length = buf.length := by
  have kept := length_store buf 0 (low (BitVec.ofInt 64 id)) (by omega)
  rw [writePacketID, length_store _ _ _ (by omega), kept]

theorem load_writePacketID (buf : List Byte) (room : 16 ≤ buf.length) (id : ℤ) :
    load (writePacketID buf id) 0 = low (BitVec.ofInt 64 id) ∧
      load (writePacketID buf id) 12 = high (BitVec.ofInt 64 id) := by
  have kept := length_store buf 0 (low (BitVec.ofInt 64 id)) (by omega)
  constructor
  · rw [writePacketID, load_store_apart _ _ _ _ (by omega) (by omega), load_store _ _ _ (by omega)]
  · rw [writePacketID, load_store _ _ _ (by omega)]

theorem load_writePacketID_apart (buf : List Byte) (room : 16 ≤ buf.length) (id : ℤ) (place : ℕ)
    (apart : 4 ≤ place ∧ place ≤ 8 ∨ 16 ≤ place) :
    load (writePacketID buf id) place = load buf place := by
  have kept := length_store buf 0 (low (BitVec.ofInt 64 id)) (by omega)
  rw [writePacketID, load_store_apart _ _ _ _ (by omega) (by omega),
    load_store_apart _ _ _ _ (by omega) (by omega)]

theorem toInt_low (n : ℤ) : (low (BitVec.ofInt 64 n)).toInt = n.bmod (2 ^ 32) := by
  have bits : low (BitVec.ofInt 64 n) = BitVec.ofInt 32 n := by
    apply BitVec.eq_of_toNat_eq
    simp only [low, BitVec.extractLsb'_toNat, BitVec.toNat_ofInt, Nat.shiftRight_zero]
    omega
  rw [bits, BitVec.toInt_ofInt]

/-- The number of a datagram as it is on the wire. -/
def wireID (bytes : List Byte) : ℤ := (datagramID true bytes).toInt

theorem wireID_writePacketID (buf : List Byte) (room : 16 ≤ buf.length) (id : ℤ)
    (lower : -2 ^ 63 ≤ id) (upper : id < 2 ^ 63) : wireID (writePacketID buf id) = id := by
  obtain ⟨first, second⟩ := load_writePacketID buf room id
  rw [wireID, datagramID, if_pos rfl, first, second, or_halves, toInt_ofInt_long id lower upper]

/-- What is read if the number is not the least of 64 bits. -/
theorem readPacketID_eq (seqNo64b : Bool) (buf : List Byte)
    (negatable : (datagramID seqNo64b buf).toInt ≠ -2 ^ 63) :
    readPacketID seqNo64b buf =
      if (datagramID seqNo64b buf).toInt < 0 then (-(datagramID seqNo64b buf).toInt, true)
      else ((datagramID seqNo64b buf).toInt, false) := by
  have least := BitVec.le_toInt (datagramID seqNo64b buf)
  have most := BitVec.toInt_lt (x := datagramID seqNo64b buf)
  rw [readPacketID]
  split_ifs
  · rw [BitVec.toInt_neg, Int.bmod_eq_of_le (by omega) (by omega)]
  · rfl

theorem signed_eq_iff (m n : ℤ) :
    (if m < 0 then (-m, true) else (m, false)) = (|n|, decide (n < 0)) ↔ m = n := by
  by_cases negative : n < 0
  · rw [abs_of_neg negative, decide_eq_true negative]
    split_ifs
    · simp
    · simp only [Prod.mk.injEq, Bool.false_eq_true, and_false, false_iff]
      omega
  · rw [abs_of_nonneg (not_lt.mp negative), decide_eq_false negative]
    split_ifs
    · simp only [Prod.mk.injEq, Bool.true_eq_false, and_false, false_iff]
      omega
    · simp

/-- A number is read as it was written, its sign apart, which marks the last datagram; only the least
number of 64 bits has no absolute value and keeps its sign. An old server, which reads one word, gets the
numbers right that fit into it, and no others. The rest of the buffer is left alone. -/
theorem packetID_roundtrip (buf : List Byte) (room : 16 ≤ buf.length) (id : ℤ)
    (lower : -2 ^ 63 ≤ id) (upper : id < 2 ^ 63) :
    readPacketID true (writePacketID buf id) =
      (if id = -2 ^ 63 then id else |id|, decide (id < 0)) ∧
    (readPacketID false (writePacketID buf id) = (|id|, decide (id < 0)) ↔
      -2 ^ 31 ≤ id ∧ id < 2 ^ 31) ∧
    (writePacketID buf id).length = buf.length ∧
    ∀ place, 4 ≤ place ∧ place ≤ 8 ∨ 16 ≤ place →
      load (writePacketID buf id) place = load buf place := by
  refine ⟨?_, ?_, length_writePacketID buf room id, ?_⟩
  · have wire : (datagramID true (writePacketID buf id)).toInt = id :=
      wireID_writePacketID buf room id lower upper
    -- the least number is its own negative
    by_cases least : id = -2 ^ 63
    · rw [if_pos least, readPacketID, BitVec.toInt_neg, wire, least]
      decide
    · rw [if_neg least, readPacketID_eq _ _ (by rwa [wire]), wire]
      exact (signed_eq_iff _ id).mpr rfl
  · have word : (datagramID false (writePacketID buf id)).toInt = id.bmod (2 ^ 32) := by
      rw [datagramID, if_neg Bool.false_ne_true, BitVec.toInt_signExtend_of_le (by omega),
        (load_writePacketID buf room id).1, toInt_low]
    -- one word holds the number modulo 2^32
    have short := Int.le_bmod (m := 2 ^ 32) (x := id) (by omega)
    rw [readPacketID_eq _ _ (by rw [word]; omega), word]
    refine (signed_eq_iff _ id).trans ?_
    constructor
    · intro same
      have least := Int.le_bmod (m := 2 ^ 32) (x := id) (by omega)
      have most := Int.bmod_lt (m := 2 ^ 32) (x := id) (by omega)
      omega
    · rintro ⟨least, most⟩
      exact Int.bmod_eq_of_le (by omega) (by omega)
  · exact load_writePacketID_apart buf room id

theorem packetID_roundtrip_sample :
    readPacketID true (writePacketID (List.replicate 16 0) (-(2 ^ 40 + 1))) = (2 ^ 40 + 1, true) ∧
      readPacketID false (writePacketID (List.replicate 16 0) (-(2 ^ 40 + 1))) ≠ (2 ^ 40 + 1, true) := by
  obtain ⟨long, short, _⟩ := packetID_roundtrip (List.replicate 16 0) (by simp) (-(2 ^ 40 + 1))
    (by decide) (by decide)
  refine ⟨long, fun read => ?_⟩
  have fits := short.mp read
  omega

/-! ### The answer of the server -/

theorem serverHdr_length (stats : TransferInfo) (enhanced : Bool) (timing : Timing) :
    (serverHdr stats enhanced timing).length = 28 := by
  simp [serverHdr, timing.length_extend]

theorem word_ackPacket (stats : TransferInfo) (enhanced : Bool) (timing : Timing) (len k : ℕ)
    (inside : k < 28) :
    load (ackPacket stats enhanced timing len) (16 + 4 * k) =
      (serverHdr stats enhanced timing).getD k 0 := by
  have bound : k < (serverHdr stats enhanced timing).length := by rwa [serverHdr_length]
  have shifted := load_append (List.replicate 16 0) (pack (serverHdr stats enhanced timing) ++
    List.replicate (max (ackpacketLength * 2) (len * 2) - ackpacketLength) 0) (4 * k)
  rw [List.length_replicate, ← List.append_assoc] at shifted
  rw [ackPacket, shifted, load_pack _ _ _ bound, List.getD_eq_getElem _ _ bound]

/-- The words behind the times. -/
theorem word_upper (stats : TransferInfo) (enhanced : Bool) (timing : Timing) (k : ℕ) :
    (serverHdr stats enhanced timing).getD (25 + k) 0 =
      [high (BitVec.ofInt 64 stats.cntError), high (BitVec.ofInt 64 stats.cntOutofOrder),
        high (BitVec.ofInt 64 stats.cntDatagrams)].getD k 0 := by
  rw [serverHdr, List.getD_append_right _ _ _ _ (by simp [timing.length_extend])]
  congr 1
  simp [timing.length_extend]

theorem flags_seqno (enhanced : Bool) :
    (headerVersion1 ||| (if enhanced then serverHeaderExtend else 0) ||| headerSeqno64b) &&&
      headerSeqno64b ≠ 0 := by
  cases enhanced with
  | false => decide
  | true => decide

/-- The numbers that can be told in 64 bits. -/
def Long (n : ℤ) : Prop := -2 ^ 63 ≤ n ∧ n < 2 ^ 63

theorem serverRelay_ackPacket (stats : TransferInfo) (enhanced : Bool) (timing : Timing) (len : ℕ) :
    let relay := serverRelay (ackPacket stats enhanced timing len)
    (Long stats.cntBytes → relay.cntBytes = stats.cntBytes) ∧
    (Long stats.cntError → relay.cntError = stats.cntError) ∧
    (Long stats.cntOutofOrder → relay.cntOutofOrder = stats.cntOutofOrder) ∧
    (Long stats.cntDatagrams → relay.cntDatagrams = stats.cntDatagrams) := by
  intro relay
  have word := word_ackPacket stats enhanced timing len
  have upper := word_upper stats enhanced timing
  have seqno : load (ackPacket stats enhanced timing len) (16 + 4 * 0) &&& headerSeqno64b ≠ 0 := by
    rw [word 0 (by omega)]
    exact flags_seqno enhanced
  -- the two words of a number are put together again
  have long : ∀ n : ℤ, Long n →
      ((high (BitVec.ofInt 64 n)).setWidth 64 <<< 32 +
        (low (BitVec.ofInt 64 n)).setWidth 64 : BitVec 64).toInt = n := by
    rintro n ⟨least, most⟩
    rw [add_halves, toInt_ofInt_long n least most]
  refine ⟨fun fits => ?_, fun fits => ?_, fun fits => ?_, fun fits => ?_⟩
  · simp only [relay, serverRelay]
    rw [word 1 (by omega), word 2 (by omega)]
    exact long _ fits
  · simp only [relay, serverRelay]
    rw [if_pos seqno, word 25 (by omega), word 5 (by omega), upper 0]
    exact long _ fits
  · simp only [relay, serverRelay]
    rw [if_pos seqno, word 26 (by omega), word 6 (by omega), upper 1]
    exact long _ fits
  · simp only [relay, serverRelay]
    rw [if_pos seqno, word 27 (by omega), word 7 (by omega), upper 2]
    exact long _ fits

/-! ### Answers that are sent again -/

def datagramsIn (heard : List Heard) : List (List Byte) :=
  heard.filterMap fun event =>
    match event with
    | .datagram bytes => some bytes
    | _ => none

theorem length_receiveInto (buf bytes : List Byte) :
    (receiveInto buf (bytes.take buf.length)).length = buf.length := by
  simp only [receiveInto, List.length_append, List.length_take, List.length_drop]
  omega

/-- What the buffer holds after these datagrams, each of which leaves alone what is behind it. -/
def heardInto (buf : List Byte) (datagrams : List (List Byte)) : List Byte :=
  datagrams.foldl (fun buf bytes => receiveInto buf (bytes.take buf.length)) buf

theorem length_heardInto (buf : List Byte) (datagrams : List (List Byte)) :
    (heardInto buf datagrams).length = buf.length := by
  induction datagrams generalizing buf with
  | nil => rfl
  | cons bytes datagrams ih => exact (ih _).trans (length_receiveInto buf bytes)

theorem ackLoop_sent (count : ℕ) (buf : List Byte) (heard : List Heard) (k : ℕ)
    (answer : List Byte) (sent : (ackLoop count buf heard).1[k]? = some answer) :
    answer = (heardInto buf (datagramsIn (heard.take k))).take ackpacketLength := by
  induction count generalizing buf heard k with
  | zero => simp [ackLoop] at sent
  | succ count ih =>
    cases heard with
    | nil =>
      cases k with
      | zero => simpa [ackLoop, heardInto, datagramsIn] using sent.symm
      | succ k => simp [ackLoop] at sent
    | cons event later =>
      cases k with
      | zero =>
        cases event with
        | silence => simpa [ackLoop, heardInto, datagramsIn] using sent.symm
        | datagram bytes => simpa [ackLoop, heardInto, datagramsIn] using sent.symm
        | failed fatal =>
          cases fatal with
          | false => simpa [ackLoop, heardInto, datagramsIn] using sent.symm
          | true => simpa [ackLoop, heardInto, datagramsIn] using sent.symm
      | succ k =>
        cases event with
        | silence => simp [ackLoop] at sent
        -- the answer is gone, the buffer holds what was heard
        | datagram bytes =>
          exact ih (receiveInto buf (bytes.take buf.length)) later k (by simpa [ackLoop] using sent)
        | failed fatal =>
          cases fatal with
          | true => simp [ackLoop] at sent
          | false => exact ih buf later k (by simpa [ackLoop] using sent)

/-- The buffer begins with the datagram that came last. -/
theorem take_heardInto (buf : List Byte) (before : List (List Byte)) (bytes : List Byte) (n : ℕ)
    (room : n ≤ buf.length) :
    bytes.take n <+: (heardInto buf (before ++ [bytes])).take n := by
  have whole : heardInto buf (before ++ [bytes]) =
      receiveInto (heardInto buf before) (bytes.take (heardInto buf before).length) :=
    List.foldl_append
  rw [whole, length_heardInto, receiveInto, List.take_append, List.take_take, min_eq_left room]
  exact List.prefix_append _ _

theorem ackLoop_length (count : ℕ) (buf : List Byte) (heard : List Heard) :
    (ackLoop count buf heard).1.length ≤ count := by
  induction count generalizing buf heard with
  | zero => simp [ackLoop]
  | succ count ih =>
    rcases heard with _ | ⟨_ | bytes | fatal, later⟩
    · simp [ackLoop]
    · simp [ackLoop]
    · simpa [ackLoop] using ih _ later
    · cases fatal with
      | false => simpa [ackLoop] using ih buf later
      | true => simp [ackLoop]

theorem ackPacket_room (stats : TransferInfo) (enhanced : Bool) (timing : Timing) (len : ℕ) :
    ackpacketLength ≤ (ackPacket stats enhanced timing len).length := by
  rw [ackPacket, List.length_append, List.length_append, List.length_replicate, length_pack,
    serverHdr_length, ackpacketLength]
  omega

theorem serverRelay_take (buf : List Byte) :
    serverRelay (buf.take ackpacketLength) = serverRelay buf := by
  have word : ∀ k, k < 28 → load (buf.take ackpacketLength) (16 + 4 * k) = load buf (16 + 4 * k) :=
    fun k inside => load_take buf ackpacketLength (16 + 4 * k) (by rw [ackpacketLength]; omega)
  simp only [serverRelay, word 0 (by omega), word 1 (by omega), word 2 (by omega), word 5 (by omega),
    word 6 (by omega), word 7 (by omega), word 25 (by omega), word 26 (by omega), word 27 (by omega)]

/-- However often the server answers: before it hears a datagram, the client can read the statistics off
the answer, all numbers of 64 bits as they are. After that an answer begins with the datagram heard last,
and if that was as long as an answer the client reads whatever it had put there itself. -/
theorem answers_sent (stats : TransferInfo) (enhanced : Bool) (timing : Timing) (len : ℕ)
    (heard : List Heard) (k : ℕ) (answer : List Byte)
    (sent : (writeUDPAckFIN stats enhanced timing len heard).1[k]? = some answer) :
    k < tryCount - 1 ∧
    (datagramsIn (heard.take k) = [] →
      (Long stats.cntBytes → (serverRelay answer).cntBytes = stats.cntBytes) ∧
      (Long stats.cntError → (serverRelay answer).cntError = stats.cntError) ∧
      (Long stats.cntOutofOrder → (serverRelay answer).cntOutofOrder = stats.cntOutofOrder) ∧
      (Long stats.cntDatagrams → (serverRelay answer).cntDatagrams = stats.cntDatagrams)) ∧
    ∀ before bytes, datagramsIn (heard.take k) = before ++ [bytes] →
      bytes.take ackpacketLength <+: answer ∧
      (ackpacketLength ≤ bytes.length →
        answer = bytes.take ackpacketLength ∧ serverRelay answer = serverRelay bytes) := by
  have room := ackPacket_room stats enhanced timing len
  have content := ackLoop_sent _ _ heard k answer sent
  refine ⟨?_, ?_, ?_⟩
  · obtain ⟨inside, _⟩ := List.getElem?_eq_some_iff.mp sent
    exact inside.trans_le (ackLoop_length _ _ heard)
  · intro silent
    rw [silent] at content
    rw [content, heardInto, List.foldl_nil]
    simp only [serverRelay_take]
    exact serverRelay_ackPacket stats enhanced timing len
  · intro before bytes split
    -- what is heard overwrites the start of the buffer
    have begins := take_heardInto (ackPacket stats enhanced timing len) before bytes ackpacketLength room
    rw [← split, ← content] at begins
    refine ⟨begins, fun long => ?_⟩
    have same : bytes.take ackpacketLength = answer := by
      apply begins.eq_of_length
      rw [content, List.length_take, List.length_take, length_heardInto, min_eq_left long,
        min_eq_left room]
    exact ⟨same.symm, by rw [← same, serverRelay_take]⟩

/-- The second answer is the datagram the client sent to ask for it. -/
theorem answers_sent_sample :
    let stats := { TransferInfo.zeroed with cntDatagrams := 5, cntError := 1 }
    let again := writePacketID (List.replicate 128 0) (-6)
    ∃ first second, (writeUDPAckFIN stats false ⟨0, 0, 0, 0, List.replicate 15 0, by simp⟩ 128
        [.datagram again, .silence]).1 = [first, second] ∧
      (serverRelay first).cntError = 1 ∧ serverRelay second = serverRelay again := by
  intro stats again
  have long : ackpacketLength ≤ again.length := by
    rw [length_writePacketID _ (by simp), List.length_replicate, ackpacketLength]
  refine ⟨_, _, rfl, ?_, ?_⟩
  · obtain ⟨_, fresh, _⟩ := answers_sent stats false _ 128 [.datagram again, .silence] 0 _ rfl
    exact (fresh rfl).2.1 ⟨by decide, by decide⟩
  · obtain ⟨_, _, stale⟩ := answers_sent stats false _ 128 [.datagram again, .silence] 1 _ rfl
    exact ((stale [] again rfl).2 long).2

end Tlink.Properties
