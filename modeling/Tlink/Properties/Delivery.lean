import Tlink.Properties.Reports
import Tlink.Properties.Wire

/-!
# From the client to its report

The client numbers its datagrams, some of them arrive, the server reports what it makes of the numbers and
tells the client. Nothing of this needs the network to be kind: datagrams may be lost, swapped and doubled.
-/
namespace Tlink.Properties

open Tlink.Testbed Words Interleave

/-! ### The numbers the client uses -/

theorem clientRunUDP_ids (packetID : ℤ) (writes : List Written) :
    (clientRunUDP packetID writes).2 = packetID + (clientRunUDP packetID writes).1.length ∧
      (clientRunUDP packetID writes).1.Nodup ∧
      ∀ id, id ∈ (clientRunUDP packetID writes).1 ↔
        packetID ≤ id ∧ id < (clientRunUDP packetID writes).2 := by
  induction writes generalizing packetID with
  | nil => simp [clientRunUDP]
  | cons write writes ih =>
    cases write with
    -- a number is used up by a write that succeeds, and by no other
    | done =>
      obtain ⟨next, distinct, ids⟩ := ih (packetID + 1)
      have split : clientRunUDP packetID (.done :: writes) =
          (packetID :: (clientRunUDP (packetID + 1) writes).1,
            (clientRunUDP (packetID + 1) writes).2) := rfl
      rw [split]
      refine ⟨?_, List.nodup_cons.mpr ⟨fun again => ?_, distinct⟩, fun id => ?_⟩
      · rw [next, List.length_cons]
        omega
      · have above := (ids packetID).mp again
        omega
      · rw [List.mem_cons, ids]
        omega
    | retry => exact ih packetID
    | fatal => simp [clientRunUDP]

theorem mem_finIds_iff (next : ℤ) (retries : ℕ) (id : ℤ) :
    id ∈ finIds next retries ↔ -(next + retries) ≤ id ∧ id ≤ -next := by
  simp only [finIds, List.mem_map, List.mem_range]
  constructor
  · rintro ⟨k, bound, rfl⟩
    omega
  · rintro ⟨least, most⟩
    exact ⟨(-id - next).toNat, by omega, by omega⟩

/-! ### What arrives -/

/-- The numbers of the datagrams before the first one that ends the test, and the number of that one. -/
def delivered : List Received → List ℤ × Option ℤ
  | [] => ([], none)
  | .timeout :: later => delivered later
  | .closed :: _ => ([], none)
  | .datagram bytes _ :: later =>
    if wireID bytes < 0 then ([], some (-wireID bytes))
    else (wireID bytes :: (delivered later).1, (delivered later).2)

/-- What comes from the first datagram on that can begin a test. -/
def fresh : List Received → List Received
  | [] => []
  | .datagram bytes truncated :: later =>
    if 0 < wireID bytes then .datagram bytes truncated :: later else fresh later
  | _ :: later => fresh later

theorem numbers_cons (packet : ReportStruct) (packets : List ReportStruct) :
    numbers (packet :: packets) =
      (if Counted packet then [packet.packetID] else []) ++ numbers packets := by
  by_cases counted : Counted packet
  · simp [numbers, counted]
  · simp [numbers, counted]

theorem load_receiveInto (mBuf bytes : List Byte) (place : ℕ) (inside : place + 4 ≤ bytes.length) :
    load (receiveInto mBuf bytes) place = load bytes place := by
  rw [← load_take _ bytes.length place inside, receiveInto, List.take_left]

/-- What was in the buffer before does not matter for a datagram that has a number. -/
theorem wireID_receiveInto (mBuf bytes : List Byte) (full : 16 ≤ bytes.length) :
    wireID (receiveInto mBuf bytes) = wireID bytes := by
  simp only [wireID, datagramID, if_true, load_receiveInto mBuf bytes 0 (by omega),
    load_receiveInto mBuf bytes 12 (by omega)]

theorem readPacketID_receiveInto (mBuf bytes : List Byte) (full : 16 ≤ bytes.length)
    (negatable : wireID bytes ≠ -2 ^ 63) :
    readPacketID true (receiveInto mBuf bytes) =
      if wireID bytes < 0 then (-wireID bytes, true) else (wireID bytes, false) := by
  rw [← wireID_receiveInto mBuf bytes full] at negatable ⊢
  exact readPacketID_eq true _ negatable

/-- A datagram whose number the server reads as the client meant it. -/
structure Readable (bytes : List Byte) : Prop where
  full : 20 ≤ bytes.length
  long : load bytes 16 &&& headerSeqno64b ≠ 0
  numbered : wireID bytes ≠ 0
  negatable : wireID bytes ≠ -2 ^ 63

/-- What the server makes of the datagrams. -/
theorem numbers_serverRunUDP (mBuf : List Byte) (packetID : ℤ) (received : List Received)
    (readable : ∀ bytes truncated, .datagram bytes truncated ∈ received → Readable bytes) :
    numbers (serverRunUDP true mBuf packetID received) =
      (delivered received).1 ++ (delivered received).2.toList := by
  induction received generalizing mBuf packetID with
  | nil => rfl
  | cons event later ih =>
    have readable' : ∀ bytes truncated, .datagram bytes truncated ∈ later → Readable bytes :=
      fun bytes truncated member => readable bytes truncated (List.mem_cons_of_mem _ member)
    cases event with
    -- a timeout keeps the old number, but it reports no datagram
    | timeout =>
      rw [serverRunUDP, numbers_cons, if_neg (by simp [Counted]), List.nil_append]
      exact ih mBuf packetID readable'
    | closed => simp [serverRunUDP, numbers, Counted, delivered]
    | datagram bytes truncated =>
      obtain ⟨full, _, numbered, negatable⟩ := readable bytes truncated (by simp)
      rw [serverRunUDP, readPacketID_receiveInto mBuf bytes (by omega) negatable, delivered]
      -- the end is counted under its absolute value, and nothing is read after it
      by_cases final : wireID bytes < 0
      · rw [if_pos final, if_pos final]
        change numbers [_] = _
        rw [numbers_cons, if_pos ⟨rfl, by simpa using final⟩]
        rfl
      · rw [if_neg final, if_neg final]
        change numbers (_ :: serverRunUDP true _ _ later) = _
        rw [numbers_cons, if_pos ⟨rfl, lt_of_le_of_ne (not_lt.mp final) numbered.symm⟩,
          ih _ _ readable']
        rfl

theorem mem_fresh (received : List Received) (event : Received) (member : event ∈ fresh received) :
    event ∈ received := by
  induction received with
  | nil => exact member
  | cons first later ih =>
    cases first with
    | datagram bytes truncated =>
      rw [fresh] at member
      split_ifs at member
      · exact member
      · exact List.mem_cons_of_mem _ (ih member)
    | timeout => exact List.mem_cons_of_mem _ (ih member)
    | closed => exact List.mem_cons_of_mem _ (ih member)

/-- The test begins with the first datagram that is not an end. -/
theorem udpAccept_fresh (isCompat : Bool) (mBuf : List Byte) (received : List Received)
    (readable : ∀ bytes truncated, .datagram bytes truncated ∈ received → Readable bytes)
    (accepted : Accepted) (later : List Received)
    (accepts : udpAccept isCompat mBuf received = some (accepted, later)) :
    ∃ mBuf bytes truncated, fresh received = .datagram bytes truncated :: later ∧
      accepted = ⟨true, receiveInto mBuf bytes, bytes.length⟩ ∧ 0 < wireID bytes := by
  induction received generalizing mBuf with
  | nil => cases accepts
  | cons event rest ih =>
    have onward := fun mBuf => ih mBuf
      fun bytes truncated member => readable bytes truncated (List.mem_cons_of_mem _ member)
    cases event with
    | timeout => exact onward mBuf accepts
    | closed => exact onward mBuf accepts
    | datagram bytes truncated =>
      obtain ⟨full, long, _, _⟩ := readable bytes truncated (by simp)
      -- the flags say that the number has two words
      have seqno : (isCompat || decide (bytes.length < 4) ||
          load (receiveInto mBuf bytes) 16 &&& headerSeqno64b != 0) = true := by
        rw [load_receiveInto mBuf bytes 16 full, bne_iff_ne.mpr long, Bool.or_true]
      rw [udpAccept] at accepts
      simp only [seqno] at accepts
      have number : (datagramID true (receiveInto mBuf bytes)).toInt = wireID bytes :=
        wireID_receiveInto mBuf bytes (by omega)
      rw [number] at accepts
      rw [fresh]
      -- an end is drained, but its bytes stay in the buffer
      by_cases positive : 0 < wireID bytes
      · rw [if_pos positive] at accepts ⊢
        obtain ⟨rfl, rfl⟩ := Prod.mk.inj (Option.some.inj accepts)
        exact ⟨mBuf, bytes, truncated, rfl, rfl, positive⟩
      · rw [if_neg positive] at accepts ⊢
        exact onward _ accepts

/-- What the server makes of the datagrams, the first of which the listener has read. -/
theorem numbers_serverThread (isCompat : Bool) (mBuf : List Byte) (received : List Received)
    (readable : ∀ bytes truncated, .datagram bytes truncated ∈ received → Readable bytes)
    (accepted : Accepted) (later : List Received)
    (accepts : udpAccept isCompat mBuf received = some (accepted, later)) :
    numbers (serverThread accepted later) =
      (delivered (fresh received)).1 ++ (delivered (fresh received)).2.toList := by
  obtain ⟨mBuf', bytes, truncated, first, rfl, positive⟩ :=
    udpAccept_fresh isCompat mBuf received readable accepted later accepts
  have inside : ∀ event ∈ fresh received, event ∈ received := mem_fresh received
  rw [first] at inside
  obtain ⟨full, _, _, negatable⟩ := readable bytes truncated (inside _ (by simp))
  have goesOn : ¬ wireID bytes < 0 := by omega
  rw [first, serverThread, readPacketID_receiveInto mBuf' bytes (by omega) negatable, if_neg goesOn,
    delivered, if_neg goesOn]
  change numbers (_ :: serverRunUDP true _ _ later) = _
  rw [numbers_cons, if_pos ⟨rfl, positive⟩, numbers_serverRunUDP _ _ later
    fun bytes truncated member => readable bytes truncated (inside _ (List.mem_cons_of_mem _ member))]
  rfl

/-- What came before the end was sent as data, and what ended the test was sent as the end. -/
theorem delivered_sent (ids fins : List ℤ) (positive : ∀ id ∈ ids, 0 < id)
    (negative : ∀ id ∈ fins, id < 0) (received : List Received)
    (genuine : ∀ bytes truncated, .datagram bytes truncated ∈ received → wireID bytes ∈ ids ++ fins) :
    (∀ id ∈ (delivered received).1, id ∈ ids) ∧ ∀ m ∈ (delivered received).2, -m ∈ fins := by
  induction received with
  | nil => simp [delivered]
  | cons event later ih =>
    obtain ⟨data, fin⟩ := ih fun bytes truncated member =>
      genuine bytes truncated (List.mem_cons_of_mem _ member)
    cases event with
    | timeout => exact ⟨data, fin⟩
    | closed => simp [delivered]
    | datagram bytes truncated =>
      have sent := List.mem_append.mp (genuine bytes truncated (by simp))
      rw [delivered]
      -- the sign tells the ends from the data
      by_cases final : wireID bytes < 0
      · rw [if_pos final]
        have isFin := sent.resolve_left fun isData => lt_asymm final (positive _ isData)
        refine ⟨by simp, fun m known => ?_⟩
        obtain rfl : -wireID bytes = m := by simpa using known
        simpa using isFin
      · rw [if_neg final]
        have isData := sent.resolve_right fun isFin => final (negative _ isFin)
        refine ⟨fun id member => ?_, fin⟩
        rcases List.mem_cons.mp member with rfl | old
        · exact isData
        · exact data id old

/-! ### The report -/

theorem length_filter_notMem (ids data : List ℤ) (distinct : ids.Nodup) (once : data.Nodup)
    (sent : ∀ id ∈ data, id ∈ ids) :
    ((ids.filter fun id => id ∉ data).length : ℤ) = ids.length - data.length := by
  have came : (ids.filter fun id => id ∈ data).length = data.length := by
    apply List.Perm.length_eq
    rw [List.perm_ext_iff_of_nodup (distinct.filter _) once]
    intro id
    simpa using sent id
  have all := List.length_eq_length_filter_add (l := ids) fun id => decide (id ∈ data)
  simp only [← decide_not] at all
  omega

theorem highest_lt (data : List ℤ) (m : ℤ) (below : ∀ id ∈ data, id < m) (positive : 0 < m) :
    highest data < m := by
  by_contra above
  have larger := not_lt.mp above
  obtain ⟨id, member, atLeast⟩ :=
    (le_highest_iff data (highest data) (positive.trans_le larger)).mp le_rfl
  have smaller := below id member
  omega

/-- The first answer tells the statistics. -/
theorem serverRelay_answer (stats : TransferInfo) (enhanced : Bool) (timing : Timing) (len : ℕ)
    (heard : List Heard) (answer : List Byte)
    (first : (writeUDPAckFIN stats enhanced timing len heard).1.head? = some answer)
    (error : Long stats.cntError) (datagrams : Long stats.cntDatagrams) :
    (serverRelay answer).cntDatagrams = stats.cntDatagrams ∧
      (serverRelay answer).cntError = stats.cntError := by
  rw [List.head?_eq_getElem?] at first
  have content : answer = (ackPacket stats enhanced timing len).take ackpacketLength :=
    ackLoop_sent (tryCount - 1) (ackPacket stats enhanced timing len) heard 0 answer first
  obtain ⟨_, sameError, _, sameDatagrams⟩ := serverRelay_ackPacket stats enhanced timing len
  rw [content, serverRelay_take]
  exact ⟨sameDatagrams datagrams, sameError error⟩

/-! ### The client and its server -/

/-- The datagrams of this client, in any order, none or many times. They have room for the flags, which say
that numbers have two words. -/
def FromClient (writes : List Written) (retries : ℕ) (received : List Received) : Prop :=
  ∀ bytes truncated, .datagram bytes truncated ∈ received →
    ∃ buf id, 20 ≤ buf.length ∧ load buf 16 &&& headerSeqno64b ≠ 0 ∧ bytes = writePacketID buf id ∧
      id ∈ (clientRunUDP 1 writes).1 ++ finIds (clientRunUDP 1 writes).2 retries

theorem FromClient.fresh {writes : List Written} {retries : ℕ} {received : List Received}
    (genuine : FromClient writes retries received) :
    FromClient writes retries (Properties.fresh received) :=
  fun bytes truncated member => genuine bytes truncated (mem_fresh received _ member)

section FromClient

variable {writes : List Written} {retries : ℕ} {received : List Received}
  (short : (clientRunUDP 1 writes).2 + retries < 2 ^ 63)
  (genuine : FromClient writes retries received)

include short

theorem client_range (id : ℤ)
    (sent : id ∈ (clientRunUDP 1 writes).1 ++ finIds (clientRunUDP 1 writes).2 retries) :
    -2 ^ 63 < id ∧ id < 2 ^ 63 ∧ id ≠ 0 := by
  obtain ⟨next, _, ids⟩ := clientRunUDP_ids 1 writes
  rcases List.mem_append.mp sent with isData | isFin
  · have bounds := (ids id).mp isData
    omega
  · have bounds := (mem_finIds_iff _ _ id).mp isFin
    omega

include genuine

theorem FromClient.sent (bytes : List Byte) (truncated : Bool)
    (member : .datagram bytes truncated ∈ received) :
    Readable bytes ∧
      wireID bytes ∈ (clientRunUDP 1 writes).1 ++ finIds (clientRunUDP 1 writes).2 retries := by
  obtain ⟨buf, id, room, long, rfl, sent⟩ := genuine bytes truncated member
  obtain ⟨lower, upper, numbered⟩ := client_range short id sent
  have number := wireID_writePacketID buf (by omega) id lower.le upper
  refine ⟨⟨?_, ?_, ?_, ?_⟩, by rwa [number]⟩
  · rwa [length_writePacketID buf (by omega) id]
  · rwa [load_writePacketID_apart buf (by omega) id 16 (by omega)]
  · rwa [number]
  · rw [number]
    exact lower.ne'

/-- What arrives before the end is data, and the end is behind all of it. -/
theorem FromClient.delivered :
    (∀ id ∈ (delivered received).1, id ∈ (clientRunUDP 1 writes).1 ∧
      id < (clientRunUDP 1 writes).2) ∧
    ∀ m ∈ (delivered received).2, (clientRunUDP 1 writes).2 ≤ m ∧ m < 2 ^ 63 := by
  obtain ⟨next, _, ids⟩ := clientRunUDP_ids 1 writes
  obtain ⟨isData, isFin⟩ := delivered_sent (clientRunUDP 1 writes).1
    (finIds (clientRunUDP 1 writes).2 retries) (fun id member => ((ids id).mp member).1)
    (fun id member => by have bounds := (mem_finIds_iff _ _ id).mp member; omega) received
    fun bytes truncated member => (genuine.sent short bytes truncated member).2
  refine ⟨fun id member => ⟨isData id member, ((ids id).mp (isData id member)).2⟩, ?_⟩
  intro m fin
  have bounds := (mem_finIds_iff _ _ (-m)).mp (isFin m fin)
  omega

theorem FromClient.highest_end (m : ℤ) (fin : (Properties.delivered received).2 = some m) :
    highest ((Properties.delivered received).1 ++ [m]) = m := by
  obtain ⟨next, _⟩ := clientRunUDP_ids 1 writes
  obtain ⟨below, behind⟩ := genuine.delivered short
  have later := behind m fin
  rw [highest_concat, max_eq_right]
  exact (highest_lt _ m (fun id member => (below id member).2.trans_le later.1) (by omega)).le

theorem FromClient.highest_short :
    highest ((Properties.delivered received).1 ++ (Properties.delivered received).2.toList) <
      2 ^ 63 := by
  obtain ⟨next, _⟩ := clientRunUDP_ids 1 writes
  obtain ⟨below, behind⟩ := genuine.delivered short
  cases fin : (Properties.delivered received).2 with
  | none =>
    have most := highest_lt _ _ (fun id member => (below id member).2) (by omega)
    simp only [Option.toList_none, List.append_nil]
    omega
  | some m =>
    rw [Option.toList_some, genuine.highest_end short m fin]
    exact (behind m fin).2

end FromClient

variable {ι : Type} [DecidableEq ι] [Fintype ι] {g : ReportGroup ι} {moves : List (ι × GroupMove)}
  {printed : List (Option ι × TransferInfo)}

/-- Whatever the network does to the datagrams of a client: the server reports as lost what the client
sent and the server did not get before the end, the ends that got lost included. If nothing arrives twice
the number is exact; a repetition makes up for a loss. Without an end, nothing is known of what the client
sent after the last datagram that came. The client is told the same numbers. The test begins with the first
datagram that is no end, and the ring of the server thread loses nothing: the reporter handles what the
thread reports. -/
theorem delivery_report (ran : PartialRun.run ReportGroup.step (.zeroed false) moves = .ok (g, printed))
    (i : ι) (writes : List Written) (retries : ℕ) (received : List Received)
    (short : (clientRunUDP 1 writes).2 + retries < 2 ^ 63)
    (genuine : FromClient writes retries received) (isCompat : Bool) (mBuf : List Byte)
    (accepted : Accepted) (later : List Received)
    (accepts : udpAccept isCompat mBuf received = some (accepted, later)) (packetLen : ℤ)
    (lossless : packetsIn (handled i moves) =
      serverThread accepted later ++ [finalPacket packetLen]) :
    let sent := (clientRunUDP 1 writes).1
    let data := (delivered (fresh received)).1
    ∃ report, (issuedBy (some i) printed).getLast? = some report ∧
      (∀ m, (delivered (fresh received)).2 = some m → report.cntDatagrams = m ∧
        report.cntError = max 0 (m - 1 - data.length) ∧
        (data.Nodup → report.cntError =
          (sent.filter fun id => id ∉ data).length + (m - (clientRunUDP 1 writes).2))) ∧
      ((delivered (fresh received)).2 = none → report.cntDatagrams = highest data ∧
        report.cntError = max 0 (highest data - data.length)) ∧
      ∀ enhanced timing len heard answer,
        (writeUDPAckFIN report enhanced timing len heard).1.head? = some answer →
        (serverRelay answer).cntDatagrams = report.cntDatagrams ∧
          (serverRelay answer).cntError = report.cntError := by
  intro sent data
  have begun := genuine.fresh
  -- the thread has ended, so its books are closed
  obtain ⟨_, _, _, closed⟩ := (books_kept ran).closed (sumOnly_kept ran) i
    ⟨finalPacket packetLen, by simp [lossless], by simp [finalPacket]⟩
  obtain ⟨datagrams, _, error⟩ := closed.datagrams
  -- what was handled is what was delivered, the packet of EndJob apart
  have numbersNow : numbers (packetsIn (handled i moves)) =
      (delivered (fresh received)).1 ++ (delivered (fresh received)).2.toList := by
    rw [lossless, numbers_concat, if_neg (by simp [Counted, finalPacket]), List.append_nil]
    exact numbers_serverThread isCompat mBuf received
      (fun bytes truncated member => (genuine.sent short bytes truncated member).1) accepted later
      accepts
  rw [numbersNow] at datagrams error
  have least := highest_nonneg
    ((delivered (fresh received)).1 ++ (delivered (fresh received)).2.toList)
  have most := begun.highest_short short
  refine ⟨g.threads i, by rw [closed.reports, List.getLast?_concat], ?_, ?_, ?_⟩
  · intro m fin
    rw [fin, Option.toList_some, begun.highest_end short m fin] at datagrams error
    -- the end itself is one of the numbers that came
    have plain : m - ((data ++ [m]).length : ℤ) = m - 1 - data.length := by
      rw [List.length_append, List.length_singleton]
      omega
    rw [plain] at error
    refine ⟨datagrams, error, fun once => ?_⟩
    -- without repetitions, what did not come is what was sent less what came
    obtain ⟨next, distinct, _⟩ := clientRunUDP_ids 1 writes
    have count : (clientRunUDP 1 writes).2 = 1 + sent.length := next
    obtain ⟨below, behind⟩ := begun.delivered short
    have later := behind m fin
    have lost := length_filter_notMem sent data distinct once fun id member => (below id member).1
    rw [error, max_eq_right (by omega)]
    omega
  · intro fin
    rw [fin, Option.toList_none, List.append_nil] at datagrams error
    exact ⟨datagrams, error⟩
  · intro enhanced timing len heard answer first
    refine serverRelay_answer _ enhanced timing len heard answer first ?_ ?_
    · rw [error]
      constructor
      · omega
      · omega
    · rw [datagrams]
      exact ⟨by omega, most⟩

/-- The buffer of a client that announces long numbers. -/
def announcing : List Byte := List.replicate 16 0 ++ pack [headerSeqno64b]

/-- Three datagrams: an end comes first, the second datagram and the first end get lost. -/
def lossy : List Received :=
  [-6, 3, 1, -5].map fun id => .datagram (writePacketID announcing id) false

theorem lossy_sent : ∀ id ∈ [-6, 3, 1, -5],
    id ∈ (clientRunUDP 1 [.done, .done, .done]).1 ++
      finIds (clientRunUDP 1 [.done, .done, .done]).2 2 := by
  decide

def lossyAccepted : Accepted := ⟨true, writePacketID announcing 3, 20⟩

def lossyMoves : List (Unit × GroupMove) :=
  ((), .join) :: (serverThread lossyAccepted (lossy.drop 2) ++ [finalPacket 0]).map fun packet =>
    ((), .handling (.packet packet true))

theorem delivery_report_sample :
    ∃ g printed, PartialRun.run ReportGroup.step (.zeroed false) lossyMoves = .ok (g, printed) ∧
      ∃ report, (issuedBy (some ()) printed).getLast? = some report ∧ report.cntError = 2 := by
  obtain ⟨⟨g, printed⟩, ran⟩ :
      ∃ r, PartialRun.run ReportGroup.step (.zeroed false) lossyMoves = .ok r := ⟨_, rfl⟩
  obtain ⟨report, last, ended, _⟩ := delivery_report ran () [.done, .done, .done] 2 lossy (by decide)
    (by
      intro bytes truncated member
      obtain ⟨id, known, same⟩ := List.mem_map.mp member
      obtain ⟨rfl, rfl⟩ := Received.datagram.inj same
      exact ⟨_, id, by decide, by decide, rfl, lossy_sent id known⟩)
    false [] lossyAccepted (lossy.drop 2) (by rfl) 0 rfl
  exact ⟨g, printed, ran, report, last, (ended 5 rfl).2.1⟩

end Tlink.Properties
