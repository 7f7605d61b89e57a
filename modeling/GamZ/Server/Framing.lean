import GamZ.Server.RecordFile
import Mathlib.Data.List.SplitLengths
import Mathlib.Data.List.Count

/-! # One read is one message

TCP delivers a byte stream, which successive reads cut into pieces of their own
choosing. The receiver takes each piece for one message, so it delivers every
sequence of frames exactly when the pieces are the messages. -/

namespace GamZ.Server

open CString

/-- The sizes of successive reads that use up a stream of `total` bytes. -/
structure CutsStream (sizes : List Nat) (total : Nat) : Prop where
  whole : sizes.sum = total
  nonempty : ∀ size ∈ sizes, 0 < size
  fits : ∀ size ∈ sizes, size ≤ 512

/-- The session ends with exactly the given frames stored, and the loop left
exactly if a logout was sent, with nothing of the stream unread. -/
def Delivers (memory : ServerMemory) (frames : List Frame) (logout : Bool)
    (reads : List (List Byte)) : Prop :=
  ∃ outcome, clientReceiveProcess reads memory = .ok outcome ∧
    outcome.stored = frames ∧ outcome.left = logout ∧ outcome.unread = []

/-- Header, frame, header, frame and so on, then the logout. -/
def messageSizes (count : Nat) (logout : Bool) : List Nat :=
  (List.replicate count [8, 70]).flatten ++ if logout then [7] else []

theorem map_length_messageReads (frames : List Frame) (logout : Bool) :
    (messageReads frames logout).map List.length = messageSizes frames.length logout := by
  induction frames with
  | nil => cases logout <;> rfl
  | cons frame frames induction =>
      simp [messageReads_cons, induction, messageSizes, List.replicate_succ]

theorem flatten_messageReads (frames : List Frame) (logout : Bool) :
    (messageReads frames logout).flatten = wire frames logout := by
  induction frames with
  | nil => cases logout <;> rfl
  | cons frame frames induction => simp [messageReads_cons, induction]

theorem length_wire (frames : List Frame) (logout : Bool) :
    (wire frames logout).length = (messageSizes frames.length logout).sum := by
  rw [← flatten_messageReads, List.length_flatten, map_length_messageReads]

/-- Whatever the store does, delivery is decided by the control flow. -/
theorem delivers_iff_received {memory : ServerMemory} {queue : List Frame}
    (leftBy : LeftBy queue memory) (frames : List Frame) (logout : Bool)
    (reads : List (List Byte)) :
    Delivers memory frames logout reads ↔
      received reads = { stored := frames, left := logout, unread := [] } := by
  rcases clientReceiveProcess_eq reads queue memory leftBy with
    ⟨outcome, run, control, -⟩
  constructor
  · intro delivered
    rcases delivered with ⟨found, foundRun, stored, left, unread⟩
    rw [run] at foundRun
    cases foundRun
    rw [← control, ← stored, ← left, ← unread]
  · intro isReceived
    rw [isReceived] at control
    exact ⟨outcome, run, by rw [control], by rw [control], by rw [control]⟩

/-! ## Frames that cannot be mistaken

A frame of ones holds no byte of a command text. Counting the letters `d` and
`l` and the ones then tells where the reads must have been cut. -/

private abbrev ones : Frame := constantFrame 1

private theorem ones_bytes : ones.bytes = List.replicate 70 1 := by
  decide

private theorem wire_ones_succ (count : Nat) (logout : Bool) :
    wire (List.replicate (count + 1) ones) logout =
      dataInMessage ++ (List.replicate 70 1 ++ wire (List.replicate count ones) logout) := by
  rw [List.replicate_succ, wire_cons, ones_bytes]

private theorem count_wire (character : Byte) (count : Nat) (logout : Bool) :
    (wire (List.replicate count ones) logout).count character =
      count * (dataInMessage.count character + (List.replicate 70 (1 : Byte)).count character) +
        if logout then logoutMessage.count character else 0 := by
  induction count with
  | zero => cases logout <;> simp
  | succ count induction =>
      rw [wire_ones_succ, List.count_append, List.count_append, induction, Nat.succ_mul]
      omega

private theorem mem_of_contents {bytes text : List Byte} {character : Byte}
    (isText : contents bytes = text) (member : character ∈ text) : character ∈ bytes := by
  rw [← isText] at member
  exact (List.takeWhile_sublist _).subset member

private theorem prefix_of_recordOf_ones {bytes : List Byte}
    (isOnes : recordOf (readBuffer bytes) = ones) :
    ∃ rest, bytes = List.replicate 70 1 ++ rest := by
  have long : 70 ≤ bytes.length := by
    by_contra short
    have atEnd := congrFun isOnes ⟨bytes.length, by omega⟩
    have padded : bytes.length < 512 := by omega
    simp [recordOf, readBuffer, constantFrame, List.getD_eq_getElem?_getD, padded] at atEnd
  refine ⟨bytes.drop 70, ?_⟩
  have start : bytes.take 70 = List.replicate 70 1 := by
    apply List.ext_getElem
    · simp [long]
    · intro i inTake inOnes
      have inside : i < 70 := by simpa using inOnes
      have atSlot := congrFun isOnes ⟨i, inside⟩
      rw [recordOf, readBuffer, List.getD_append _ _ _ _ (by simp; omega),
        List.getD_eq_getElem _ _ (by simp; omega)] at atSlot
      rw [List.getElem_take, List.getElem_replicate]
      exact atSlot
  rw [← start, List.take_append_drop]

/-- Every stored frame of ones took a header with a `d` and seventy ones. -/
private theorem stored_counts (reads : List (List Byte))
    (allOnes : ∀ frame ∈ (received reads).stored, frame = ones) :
    (received reads).stored.length ≤ reads.flatten.count (byte 'd') ∧
      70 * (received reads).stored.length ≤ reads.flatten.count 1 := by
  induction reads using received_induction with
  | blocked => simp [received]
  | logout bytes reads isLogout => simp [received_logout isLogout]
  | headerLast bytes isDataIn => simp [received_dataIn_last isDataIn]
  | record bytes frameBytes reads isDataIn induction =>
      rw [received_dataIn isDataIn] at allOnes ⊢
      rcases induction fun frame member => allOnes frame (List.mem_cons_of_mem _ member) with
        ⟨headers, values⟩
      rcases prefix_of_recordOf_ones (allOnes _ (List.mem_cons_self ..)) with ⟨rest, shape⟩
      have header : 0 < bytes.count (byte 'd') :=
        List.count_pos_iff.mpr (mem_of_contents isDataIn (by decide))
      have frameOnes : 70 ≤ frameBytes.count 1 := by
        rw [shape, List.count_append, List.count_replicate_self]
        omega
      simp only [List.flatten_cons, List.count_append, List.length_cons]
      omega
  | other bytes reads notLogout notDataIn induction =>
      rw [received_other notLogout notDataIn] at allOnes ⊢
      have rest := induction allOnes
      simp only [List.flatten_cons, List.count_append]
      omega

private theorem mem_of_left (reads : List (List Byte)) (left : (received reads).left = true) :
    byte 'l' ∈ reads.flatten := by
  induction reads using received_induction with
  | blocked => simp [received] at left
  | logout bytes reads isLogout =>
      exact List.mem_append_left _ (mem_of_contents isLogout (by decide))
  | headerLast bytes isDataIn =>
      rw [received_dataIn_last isDataIn] at left
      cases left
  | record bytes frameBytes reads isDataIn induction =>
      rw [received_dataIn isDataIn] at left
      exact List.mem_append_right _ (List.mem_append_right _ (induction left))
  | other bytes reads notLogout notDataIn induction =>
      rw [received_other notLogout notDataIn] at left
      exact List.mem_append_right _ (induction left)

/-- The last message of a session can only have been read whole. -/
private theorem logout_read_whole (reads : List (List Byte)) (logout : Bool)
    (nonempty : ∀ bytes ∈ reads, bytes ≠ [])
    (stream : reads.flatten = wire [] logout)
    (control : received reads = { stored := [], left := logout, unread := [] }) :
    reads = messageReads [] logout := by
  cases reads with
  | nil =>
      cases logout with
      | false => rfl
      | true => cases stream
  | cons bytes rest =>
      cases bytes with
      | nil => exact absurd rfl (nonempty [] (List.mem_cons_self ..))
      | cons first tail =>
          cases logout with
          | false => cases stream
          | true =>
              rw [List.flatten_cons, List.cons_append] at stream
              have firstIsL : first = byte 'l' := (List.cons.inj stream).1
              have oneL : ((first :: tail) ++ rest.flatten).count (byte 'l') = 1 := by
                rw [List.cons_append, stream]
                decide
              by_cases isLogout : contents (first :: tail) = logoutText
              · rw [received_logout isLogout] at control
                have restEmpty : rest = [] := congrArg Received.unread control
                subst restEmpty
                rw [List.flatten_nil, List.append_nil] at stream
                rw [stream]
                rfl
              · have notDataIn : contents (first :: tail) ≠ dataInText := by
                  rw [firstIsL, contents_cons (by decide)]
                  exact fun equal => absurd (List.cons.inj equal).1 (by decide)
                rw [received_other isLogout notDataIn] at control
                have later : 0 < rest.flatten.count (byte 'l') :=
                  List.count_pos_iff.mpr (mem_of_left rest (by rw [control]))
                rw [List.count_append, firstIsL, List.count_cons_self] at oneL
                omega

private theorem head_wire {count : Nat} {logout : Bool} {first : Byte} {rest : List Byte}
    (start : wire (List.replicate count ones) logout = first :: rest) :
    first = byte 'd' ∨ logout = true ∧ first = byte 'l' := by
  cases count with
  | zero =>
      cases logout with
      | false => cases start
      | true => exact .inr ⟨rfl, (List.cons.inj start).1.symm⟩
  | succ count =>
      rw [wire_ones_succ] at start
      exact .inl (List.cons.inj start).1.symm

/-- The front of the stream is the header when neither side of the cut behind it
lets a value into the header or a header letter into the values. -/
private theorem header_read_whole {bytes values stream : List Byte}
    (split : bytes ++ ((1 : Byte) :: values) = dataInMessage ++ ((1 : Byte) :: stream))
    (noValue : (1 : Byte) ∉ bytes) : bytes = dataInMessage := by
  rcases List.append_eq_append_iff.mp split with ⟨gap, header, front⟩ | ⟨gap, longer, front⟩
  · cases gap with
    | nil => rw [header, List.append_nil]
    | cons first gap =>
        have firstIsValue : (1 : Byte) = first := (List.cons.inj front).1
        have inHeader : (1 : Byte) ∈ dataInMessage := by
          rw [header, firstIsValue]
          simp
        exact absurd inHeader (by decide)
  · cases gap with
    | nil => rw [longer, List.append_nil]
    | cons first gap =>
        have firstIsValue : (1 : Byte) = first := (List.cons.inj front).1
        exact absurd (by rw [longer, firstIsValue]; simp) noValue

private theorem count_d_wire (count : Nat) (logout : Bool) :
    (wire (List.replicate count ones) logout).count (byte 'd') = count := by
  have header : dataInMessage.count (byte 'd') = 1 := by decide
  have values : (List.replicate 70 (1 : Byte)).count (byte 'd') = 0 := by decide
  have last : logoutMessage.count (byte 'd') = 0 := by decide
  rw [count_wire, header, values, last]
  simp

private theorem count_l_wire (count : Nat) (logout : Bool) :
    (wire (List.replicate count ones) logout).count (byte 'l') = if logout then 1 else 0 := by
  have header : dataInMessage.count (byte 'l') = 0 := by decide
  have values : (List.replicate 70 (1 : Byte)).count (byte 'l') = 0 := by decide
  have last : logoutMessage.count (byte 'l') = 1 := by decide
  rw [count_wire, header, values, last]
  simp

private theorem count_one_wire (count : Nat) (logout : Bool) :
    (wire (List.replicate count ones) logout).count 1 = 70 * count := by
  have header : dataInMessage.count 1 = 0 := by decide
  have values : (List.replicate 70 (1 : Byte)).count 1 = 70 := by decide
  have last : logoutMessage.count 1 = 0 := by decide
  rw [count_wire, header, values, last]
  simp
  omega

/-- When the first two reads yield a record of ones and the rest yields the other
records, the first read is the header and the second nothing but the frame. -/
private theorem record_cut {bytes extra : List Byte} {rest : List (List Byte)} {count : Nat}
    {logout : Bool}
    (stream : bytes ++ ((List.replicate 70 1 ++ extra) ++ rest.flatten) =
      wire (List.replicate (count + 1) ones) logout)
    (header : byte 'd' ∈ bytes)
    (control : received rest =
      { stored := List.replicate count ones, left := logout, unread := [] }) :
    bytes = dataInMessage ∧ extra = [] := by
  have laterOnes : ∀ frame ∈ (received rest).stored, frame = ones := by
    rw [control]
    exact fun frame member => (List.mem_replicate.mp member).2
  rcases stored_counts rest laterOnes with ⟨laterD, laterOne⟩
  rw [control, List.length_replicate] at laterD laterOne
  have headerD := List.count_pos_iff.mpr header
  have totalD := congrArg (List.count (byte 'd')) stream
  have totalL := congrArg (List.count (byte 'l')) stream
  have totalOne := congrArg (List.count (1 : Byte)) stream
  rw [count_d_wire, List.count_append, List.count_append, List.count_append] at totalD
  rw [count_l_wire, List.count_append, List.count_append, List.count_append] at totalL
  rw [count_one_wire, List.count_append, List.count_append, List.count_append,
    List.count_replicate_self] at totalOne
  have noValue : (1 : Byte) ∉ bytes := fun member => by
    have := List.count_pos_iff.mpr member
    omega
  have noD : byte 'd' ∉ extra := fun member => by
    have := List.count_pos_iff.mpr member
    omega
  have noL : logout = true → byte 'l' ∉ extra := fun isLogout member => by
    have inExtra := List.count_pos_iff.mpr member
    have inRest := List.count_pos_iff.mpr (mem_of_left rest (by rw [control, isLogout]))
    rw [if_pos isLogout] at totalL
    omega
  rw [wire_ones_succ] at stream
  have isHeader : bytes = dataInMessage := header_read_whole stream noValue
  refine ⟨isHeader, ?_⟩
  rw [isHeader, List.append_assoc] at stream
  have behind := List.append_cancel_left (List.append_cancel_left stream)
  cases extra with
  | nil => rfl
  | cons first extra =>
      rcases head_wire behind.symm with isD | ⟨isLogout, isL⟩
      · exact absurd (by rw [isD]; simp) noD
      · exact absurd (by rw [isL]; simp) (noL isLogout)

/-- A record of ones at the front of the stream can only have been read as its
header and its frame. -/
private theorem record_read_whole (reads : List (List Byte)) (count : Nat) (logout : Bool)
    (nonempty : ∀ bytes ∈ reads, bytes ≠ [])
    (stream : reads.flatten = wire (List.replicate (count + 1) ones) logout)
    (control : received reads =
      { stored := List.replicate (count + 1) ones, left := logout, unread := [] }) :
    ∃ rest, reads = dataInMessage :: ones.bytes :: rest ∧
      rest.flatten = wire (List.replicate count ones) logout ∧
      received rest = { stored := List.replicate count ones, left := logout, unread := [] } := by
  have total : reads.flatten.count (byte 'd') = count + 1 := by rw [stream, count_d_wire]
  cases reads with
  | nil => simp at total
  | cons bytes reads =>
      cases bytes with
      | nil => exact absurd rfl (nonempty [] (List.mem_cons_self ..))
      | cons first tail =>
          have firstIsD : first = byte 'd' := by
            rw [wire_ones_succ] at stream
            exact (List.cons.inj stream).1
          have notLogout : contents (first :: tail) ≠ logoutText := by
            rw [firstIsD, contents_cons (by decide)]
            exact fun equal => absurd (List.cons.inj equal).1 (by decide)
          have headerD : 0 < (first :: tail).count (byte 'd') := by
            rw [firstIsD, List.count_cons_self]
            omega
          by_cases isDataIn : contents (first :: tail) = dataInText
          · cases reads with
            | nil =>
                rw [received_dataIn_last isDataIn] at control
                cases control
            | cons frameBytes rest =>
                rw [received_dataIn isDataIn, List.replicate_succ] at control
                have restControl : received rest =
                    { stored := List.replicate count ones, left := logout, unread := [] } := by
                  have stored := congrArg Received.stored control
                  have left := congrArg Received.left control
                  have unread := congrArg Received.unread control
                  simp only at left unread
                  rw [← (List.cons.inj stored).2, ← left, ← unread]
                have recorded : recordOf (readBuffer frameBytes) = ones :=
                  (List.cons.inj (congrArg Received.stored control)).1
                rcases prefix_of_recordOf_ones recorded with ⟨extra, shape⟩
                rw [List.flatten_cons, List.flatten_cons, shape] at stream
                rcases record_cut stream (by rw [firstIsD]; simp) restControl with
                  ⟨isHeader, isFrame⟩
                rw [isHeader, isFrame, List.append_nil, wire_ones_succ] at stream
                refine ⟨rest, ?_, ?_, restControl⟩
                · rw [isHeader, shape, isFrame, List.append_nil, ones_bytes]
                · exact List.append_cancel_left (List.append_cancel_left stream)
          · rw [received_other notLogout isDataIn] at control
            have later := (stored_counts reads (by
              rw [control]
              exact fun frame member => (List.mem_replicate.mp member).2)).1
            rw [control, List.length_replicate] at later
            rw [List.flatten_cons, List.count_append] at total
            omega

private theorem ones_read_whole (count : Nat) (logout : Bool) :
    ∀ reads : List (List Byte), (∀ bytes ∈ reads, bytes ≠ []) →
      reads.flatten = wire (List.replicate count ones) logout →
      received reads =
        { stored := List.replicate count ones, left := logout, unread := [] } →
      reads = messageReads (List.replicate count ones) logout := by
  induction count with
  | zero => exact fun reads => logout_read_whole reads logout
  | succ count induction =>
      intro reads nonempty stream control
      rcases record_read_whole reads count logout nonempty stream control with
        ⟨rest, rfl, restStream, restControl⟩
      have restNonempty : ∀ bytes ∈ rest, bytes ≠ [] := fun bytes member =>
        nonempty bytes (by simp [member])
      rw [List.replicate_succ, messageReads_cons,
        induction rest restNonempty restStream restControl]

/-- Reads of the message sizes return the messages. -/
private theorem splitLengths_messageSizes (frames : List Frame) (logout : Bool) :
    (messageSizes frames.length logout).splitLengths (wire frames logout) =
      messageReads frames logout := by
  induction frames with
  | nil => cases logout <;> rfl
  | cons frame frames induction =>
      have sizes : messageSizes (frames.length + 1) logout =
          8 :: 70 :: messageSizes frames.length logout := by
        simp [messageSizes, List.replicate_succ]
      rw [List.length_cons, sizes, wire_cons, messageReads_cons, List.splitLengths_cons,
        List.splitLengths_cons, List.take_left' length_dataInMessage,
        List.drop_left' length_dataInMessage, List.take_left' frame.length_bytes,
        List.drop_left' frame.length_bytes, induction]

/-- A way of cutting the stream delivers every sequence of frames of the given
length exactly when it cuts at the ends of the messages. -/
theorem delivers_iff_message_sizes (history : List Frame) (memory : ServerMemory)
    (earlier : FileLeftByRuns history memory.inputTxt) (count : Nat) (logout : Bool)
    (sizes : List Nat) (cuts : CutsStream sizes (messageSizes count logout).sum) :
    (∀ frames : List Frame, frames.length = count →
        Delivers memory frames logout (sizes.splitLengths (wire frames logout))) ↔
      sizes = messageSizes count logout := by
  constructor
  · intro deliversAll
    have length : (List.replicate count ones).length = count := List.length_replicate
    have control := (delivers_iff_received earlier.leftBy _ _ _).mp
      (deliversAll (List.replicate count ones) length)
    have total : (wire (List.replicate count ones) logout).length = sizes.sum := by
      rw [length_wire, length, cuts.whole]
    have lengths := List.map_splitLengths_length (wire (List.replicate count ones) logout) sizes
      total.ge
    have nonempty : ∀ bytes ∈ sizes.splitLengths (wire (List.replicate count ones) logout),
        bytes ≠ [] := by
      intro bytes member equal
      have size : bytes.length ∈ sizes := by
        rw [← lengths]
        exact List.mem_map_of_mem member
      have positive := cuts.nonempty _ size
      rw [equal] at positive
      exact absurd positive (by decide)
    have whole := ones_read_whole count logout _ nonempty
      (List.flatten_splitLengths _ _ total.le) control
    rw [whole, map_length_messageReads, length] at lengths
    exact lengths.symm
  · intro isMessages frames length
    rw [delivers_iff_received earlier.leftBy, isMessages, ← length,
      splitLengths_messageSizes, received_messageReads]

theorem two_records_and_logout_delivered_iff :
    (∀ frames : List Frame, frames.length = 2 →
        Delivers .initial frames true ([8, 70, 8, 70, 7].splitLengths (wire frames true))) ↔
      [8, 70, 8, 70, 7] = messageSizes 2 true :=
  delivers_iff_message_sizes [] .initial .empty 2 true [8, 70, 8, 70, 7]
    ⟨by decide, by decide, by decide⟩

/-- A header and its frame that arrive in one read lose the frame. -/
theorem coalesced_record_not_delivered :
    ¬ ∀ (history : List Frame) (memory : ServerMemory),
      FileLeftByRuns history memory.inputTxt →
      ∀ (frames : List Frame) (logout : Bool) (sizes : List Nat),
        CutsStream sizes (messageSizes frames.length logout).sum →
          Delivers memory frames logout (sizes.splitLengths (wire frames logout)) := by
  intro deliversAll
  have delivered := deliversAll [] .initial .empty [constantFrame 1] false [78]
    ⟨by decide, by decide, by decide⟩
  rw [delivers_iff_received FileLeftByRuns.empty.leftBy] at delivered
  have oneRead : [78].splitLengths (wire [constantFrame 1] false) =
      [wire [constantFrame 1] false] := by
    decide
  have header : contents (wire [constantFrame 1] false) = dataInText := by
    decide
  rw [oneRead, received_dataIn_last header] at delivered
  cases delivered

end GamZ.Server
