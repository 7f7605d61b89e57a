import GamZ.Server.StreamFrames

/-! # The end of the stream

Once the client is gone every `read` returns at once with nothing. The receiver
looks at the text in its buffer only, so nothing but a logout ends its loop, and
whatever the `read` behind a `data_in` brings is stored as a frame. -/

namespace GamZ.Server

open CString

/-- The stream has been cut into the given reads, then it has ended, and any number
of reads that bring nothing can follow. The loop leaves after some of them, with
nothing stored but frames of the stream. -/
def EndsCleanly (memory : ServerMemory) (reads : List (List Byte)) : Prop :=
  ∃ count outcome,
    clientReceiveProcess (reads ++ List.replicate count []) memory = .ok outcome ∧
    outcome.left = true ∧ ∀ record ∈ outcome.stored, record ∈ framesIn reads.flatten

/-- Up to a logout the read behind every `data_in` yields one of the frames. -/
inductive CleanSession (frames : List Frame) : List (List Byte) → Prop
  | logout {bytes : List Byte} {reads : List (List Byte)} :
      contents bytes = logoutText → CleanSession frames (bytes :: reads)
  | record {bytes frameBytes : List Byte} {reads : List (List Byte)} :
      contents bytes = dataInText → recordOf (readBuffer frameBytes) ∈ frames →
      CleanSession frames reads → CleanSession frames (bytes :: frameBytes :: reads)
  | other {bytes : List Byte} {reads : List (List Byte)} :
      contents bytes ≠ logoutText → contents bytes ≠ dataInText → CleanSession frames reads →
      CleanSession frames (bytes :: reads)

/-! ## The control flow of the loop -/

/-- The loop leaves with nothing but these frames stored. Neither depends on the store. -/
def ReceivesCleanly (frames : List Frame) (reads : List (List Byte)) : Prop :=
  (received reads).left = true ∧ ∀ record ∈ (received reads).stored, record ∈ frames

section Passes

variable {frames : List Frame} {bytes : List Byte}

theorem receivesCleanly_logout (isLogout : contents bytes = logoutText)
    (reads : List (List Byte)) : ReceivesCleanly frames (bytes :: reads) := by
  rw [ReceivesCleanly, received_logout isLogout]
  exact ⟨rfl, fun record member => by cases member⟩

theorem receivesCleanly_record_iff (isDataIn : contents bytes = dataInText)
    (frameBytes : List Byte) (reads : List (List Byte)) :
    ReceivesCleanly frames (bytes :: frameBytes :: reads) ↔
      recordOf (readBuffer frameBytes) ∈ frames ∧ ReceivesCleanly frames reads := by
  rw [ReceivesCleanly, ReceivesCleanly, received_dataIn isDataIn, List.forall_mem_cons]
  exact and_left_comm

theorem receivesCleanly_other_iff (notLogout : contents bytes ≠ logoutText)
    (notDataIn : contents bytes ≠ dataInText) (reads : List (List Byte)) :
    ReceivesCleanly frames (bytes :: reads) ↔ ReceivesCleanly frames reads := by
  rw [ReceivesCleanly, ReceivesCleanly, received_other notLogout notDataIn]

theorem received_replicate_nil (count : Nat) :
    received (List.replicate count []) = { stored := [], left := false, unread := [] } := by
  induction count with
  | zero => rfl
  | succ count induction =>
      rw [List.replicate_succ, received_other (by decide) (by decide), induction]

theorem not_receivesCleanly_replicate (frames : List Frame) (count : Nat) :
    ¬ ReceivesCleanly frames (List.replicate count []) := by
  intro clean
  have left := clean.1
  rw [received_replicate_nil] at left
  cases left

/-- Behind a header the stream is at its end. -/
theorem not_receivesCleanly_headerLast (isDataIn : contents bytes = dataInText) (count : Nat) :
    ¬ ReceivesCleanly frames ([bytes] ++ List.replicate count []) := by
  intro clean
  cases count with
  | zero =>
      have left := clean.1
      rw [List.replicate_zero, List.append_nil, received_dataIn_last isDataIn] at left
      cases left
  | succ count =>
      have rest := ((receivesCleanly_record_iff isDataIn [] _).mp clean).2
      exact not_receivesCleanly_replicate frames count rest

end Passes

/-- However many empty reads follow, the session is clean only if its own reads
make it so. -/
theorem receivesCleanly_iff (frames : List Frame) (reads : List (List Byte)) :
    (∃ count, ReceivesCleanly frames (reads ++ List.replicate count [])) ↔
      CleanSession frames reads := by
  induction reads using received_induction with
  | blocked =>
      constructor
      · intro clean
        rcases clean with ⟨count, clean⟩
        exact absurd clean (not_receivesCleanly_replicate frames count)
      · intro clean
        cases clean
  | logout bytes reads isLogout =>
      constructor
      · exact fun _ => .logout isLogout
      · exact fun _ => ⟨0, receivesCleanly_logout isLogout _⟩
  | headerLast bytes isDataIn =>
      constructor
      · intro clean
        rcases clean with ⟨count, clean⟩
        exact absurd clean (not_receivesCleanly_headerLast isDataIn count)
      · intro clean
        cases clean with
        | logout isLogout => exact absurd (isDataIn.symm.trans isLogout) dataInText_ne_logoutText
        | other _ notDataIn _ => exact absurd isDataIn notDataIn
  | record bytes frameBytes reads isDataIn induction =>
      simp only [List.cons_append, receivesCleanly_record_iff isDataIn, exists_and_left, induction]
      constructor
      · exact fun clean => .record isDataIn clean.1 clean.2
      · intro clean
        cases clean with
        | logout isLogout => exact absurd (isDataIn.symm.trans isLogout) dataInText_ne_logoutText
        | record _ whole rest => exact ⟨whole, rest⟩
        | other _ notDataIn _ => exact absurd isDataIn notDataIn
  | other bytes reads notLogout notDataIn induction =>
      simp only [List.cons_append, receivesCleanly_other_iff notLogout notDataIn, induction]
      constructor
      · exact fun clean => .other notLogout notDataIn clean
      · intro clean
        cases clean with
        | logout isLogout => exact absurd isLogout notLogout
        | record isDataIn _ _ => exact absurd isDataIn notDataIn
        | other _ _ rest => exact rest

/-- The store changes nothing about how the loop ends. -/
theorem endsCleanly_iff_receivesCleanly {queue : List Frame} {memory : ServerMemory}
    (leftBy : LeftBy queue memory) (reads : List (List Byte)) :
    EndsCleanly memory reads ↔
      ∃ count, ReceivesCleanly (framesIn reads.flatten) (reads ++ List.replicate count []) := by
  constructor
  · intro ends
    rcases ends with ⟨count, outcome, run, left, stores⟩
    rcases clientReceiveProcess_eq (reads ++ List.replicate count []) queue memory leftBy with
      ⟨found, foundRun, control, -⟩
    rw [run] at foundRun
    cases foundRun
    refine ⟨count, ?_⟩
    rw [ReceivesCleanly, ← control]
    exact ⟨left, stores⟩
  · intro clean
    rcases clean with ⟨count, clean⟩
    rcases clientReceiveProcess_eq (reads ++ List.replicate count []) queue memory leftBy with
      ⟨outcome, run, control, -⟩
    rw [ReceivesCleanly, ← control] at clean
    exact ⟨count, outcome, run, clean⟩

/-! ## Cuts of the client's stream -/

/-- The sizes of the reads that a stream of `total` bytes is cut into before it ends. -/
structure CutsFront (sizes : List Nat) (total : Nat) : Prop where
  within : sizes.sum ≤ total
  nonempty : ∀ size ∈ sizes, 0 < size
  fits : ∀ size ∈ sizes, size ≤ 512

/-- Inside a frame the read has room for `data_in`, and for its NUL if it is longer. -/
def MaySpellHeader (count position size : Nat) : Prop :=
  position < 78 * count ∧ 8 ≤ position % 78 ∧
    (size = 7 ∧ position % 78 ≤ 71 ∨ 8 ≤ size ∧ position % 78 ≤ 70)

instance (count position size : Nat) : Decidable (MaySpellHeader count position size) := by
  unfold MaySpellHeader
  infer_instance

/-- The read begins at the start of a frame and brings all of it. -/
def ReadsFrame (count position size : Nat) : Prop :=
  position < 78 * count ∧ position % 78 = 8 ∧ 70 ≤ size

instance (count position size : Nat) : Decidable (ReadsFrame count position size) := by
  unfold ReadsFrame
  infer_instance

/-- From a position on, where the next read is taken for a command: the logout comes at
the start of a read. Up to there a read at a header is followed by the read of a frame,
and no read inside a frame can be taken for a header. -/
def CleanCut (count : Nat) (logout : Bool) : Nat → List Nat → Prop
  | _, [] => False
  | position, size :: sizes =>
      if position = 78 * count ∧ logout = true ∧ 6 ≤ size then True
      else if position < 78 * count ∧ position % 78 = 0 ∧ 7 ≤ size then
        match sizes with
        | [] => False
        | frameSize :: sizes =>
            ReadsFrame count (position + size) frameSize ∧
              CleanCut count logout (position + size + frameSize) sizes
      else
        ¬ MaySpellHeader count position size ∧ CleanCut count logout (position + size) sizes

/-! ### What the reads are taken for -/

section Commands

variable {frames : List Frame} {logout : Bool} {position size : Nat}

/-- The read starts with a text. -/
theorem first_of_text {text stream : List Byte} (noNul : (0 : Byte) ∉ text) {first : Byte}
    (starts : text.getD 0 0 = first) (nonzero : first ≠ 0)
    (isText : contents (readAt stream position size) = text) :
    0 < size ∧ stream.getD position 0 = first := by
  have start := (readAt_eq_text_iff noNul stream position size).mp isText 0 (Nat.zero_le _)
  rw [starts, Nat.add_zero] at start
  split_ifs at start with some
  · exact ⟨some, start⟩
  · exact absurd start.symm nonzero

theorem header_read (inRecords : position < 78 * frames.length) (atHeader : position % 78 = 0)
    (enough : 7 ≤ size) :
    contents (readAt (wire frames logout) position size) = dataInText := by
  rw [readAt_eq_text_iff (by decide)]
  intro i within
  have small : i ≤ 7 := within
  have same : dataInMessage.getD i 0 = dataInText.getD i 0 := by
    interval_cases i <;> rfl
  split_ifs with inRead
  · rw [headerByte (by omega) (by omega), ← same]
    congr 1
    omega
  · have last : i = 7 := by omega
    rw [last]
    rfl

theorem logout_read (atEnd : position = 78 * frames.length) (logsOut : logout = true)
    (enough : 6 ≤ size) :
    contents (readAt (wire frames logout) position size) = logoutText := by
  rw [readAt_eq_text_iff (by decide)]
  intro i within
  have small : i ≤ 6 := within
  have same : logoutMessage.getD i 0 = logoutText.getD i 0 := by
    interval_cases i <;> rfl
  split_ifs with inRead
  · rw [endByte (by omega), if_pos logsOut, ← same]
    congr 1
    omega
  · have last : i = 6 := by omega
    rw [last]
    rfl

/-- Between the messages of the stream stand the starts of texts. -/
theorem byte_at_boundary (atStart : position % 78 = 0) (inStream : position ≤ 78 * frames.length) :
    (wire frames logout).getD position 0 = byte 'd' ∨
      (wire frames logout).getD position 0 = byte 'l' ∨
        (wire frames logout).getD position 0 = 0 ∧ (wire frames logout).length ≤ position := by
  rcases Nat.lt_or_ge position (78 * frames.length) with inRecords | atEnd
  · rw [headerByte inRecords (by omega), atStart]
    exact .inl rfl
  · rw [endByte atEnd, Nat.sub_eq_zero_of_le inStream, length_wire_eq]
    cases logout with
    | true => exact .inr (.inl rfl)
    | false => exact .inr (.inr ⟨rfl, atEnd⟩)

/-- Inside of a header or a logout no text begins. -/
theorem inside_of_text {offset : Nat} (low : 0 < offset) (message : List Byte)
    (isMessage : message = dataInMessage ∨ message = logoutMessage ∨ message = []) :
    message.getD offset 0 ≠ byte 'd' ∧ message.getD offset 0 ≠ byte 'l' := by
  rcases Nat.lt_or_ge offset 8 with small | large
  · rcases isMessage with rfl | rfl | rfl <;> interval_cases offset <;> decide
  · rcases isMessage with rfl | rfl | rfl <;>
      rw [List.getD_eq_default _ _ (Nat.le_trans (by decide) large)] <;> decide

/-- Nor behind the start of the logout. -/
theorem byte_inside (inText : position < 78 * frames.length ∧ 0 < position % 78 ∧
    position % 78 < 8 ∨ 78 * frames.length < position) :
    (wire frames logout).getD position 0 ≠ byte 'd' ∧
      (wire frames logout).getD position 0 ≠ byte 'l' := by
  rcases inText with ⟨inRecords, low, inHeader⟩ | behind
  · rw [headerByte inRecords inHeader]
    exact inside_of_text low _ (.inl rfl)
  · rw [endByte (Nat.le_of_lt behind)]
    apply inside_of_text (by omega)
    cases logout with
    | true => exact .inr (.inl rfl)
    | false => exact .inr (.inr rfl)

/-- `data_in` takes at least seven bytes. -/
theorem size_of_dataIn {stream : List Byte}
    (isDataIn : contents (readAt stream position size) = dataInText) : 7 ≤ size := by
  by_contra short
  have sixth := (readAt_eq_text_iff (by decide) stream position size).mp isDataIn 6 (by decide)
  rw [if_neg (by omega)] at sixth
  exact absurd sixth (by decide)

theorem size_of_logout {stream : List Byte}
    (isLogout : contents (readAt stream position size) = logoutText) : 6 ≤ size := by
  by_contra short
  have fifth := (readAt_eq_text_iff (by decide) stream position size).mp isLogout 5 (by decide)
  rw [if_neg (by omega)] at fifth
  exact absurd fifth (by decide)

/-- A read that starts with neither letter is taken for neither text. -/
theorem other_read
    (plain : 0 < size → position < 78 * frames.length → 8 ≤ position % 78 →
      (wire frames logout).getD position 0 ≠ byte 'd' ∧
        (wire frames logout).getD position 0 ≠ byte 'l')
    (notLogout : ¬ (position = 78 * frames.length ∧ logout = true ∧ 6 ≤ size))
    (notHeader : ¬ (position < 78 * frames.length ∧ position % 78 = 0 ∧ 7 ≤ size)) :
    contents (readAt (wire frames logout) position size) ≠ logoutText ∧
      contents (readAt (wire frames logout) position size) ≠ dataInText := by
  have starts : 0 < size → (wire frames logout).getD position 0 ≠ byte 'd' ∧
      (wire frames logout).getD position 0 ≠ byte 'l' ∨
        position ≤ 78 * frames.length ∧ position % 78 = 0 := by
    intro some
    rcases Nat.lt_trichotomy position (78 * frames.length) with inRecords | atEnd | behind
    · rcases Nat.eq_zero_or_pos (position % 78) with atHeader | low
      · exact .inr ⟨Nat.le_of_lt inRecords, atHeader⟩
      · rcases Nat.lt_or_ge (position % 78) 8 with inHeader | inFrame
        · exact .inl (byte_inside (.inl ⟨inRecords, low, inHeader⟩))
        · exact .inl (plain some inRecords inFrame)
    · exact .inr (by omega)
    · exact .inl (byte_inside (.inr behind))
  constructor
  · intro isLogout
    rcases first_of_text (by decide) rfl (by decide) isLogout with ⟨some, start⟩
    have enough := size_of_logout isLogout
    rcases starts some with neither | ⟨inStream, atStart⟩
    · exact neither.2 start
    · rcases Nat.lt_or_eq_of_le inStream with inRecords | atEnd
      · rw [headerByte inRecords (by omega), atStart] at start
        exact absurd start (by decide)
      · rw [endByte (by omega), atEnd, Nat.sub_self] at start
        cases logout with
        | true => exact notLogout ⟨atEnd, rfl, enough⟩
        | false => exact absurd start (by decide)
  · intro isDataIn
    rcases first_of_text (by decide) rfl (by decide) isDataIn with ⟨some, start⟩
    have enough := size_of_dataIn isDataIn
    rcases starts some with neither | ⟨inStream, atStart⟩
    · exact neither.1 start
    · rcases Nat.lt_or_eq_of_le inStream with inRecords | atEnd
      · exact notHeader ⟨inRecords, atStart, enough⟩
      · rw [endByte (by omega), atEnd, Nat.sub_self] at start
        cases logout <;> exact absurd start (by decide)

/-- Whatever a frame holds, `data_in` does not reach into the next message. -/
theorem not_dataIn_read (cannot : ¬ MaySpellHeader frames.length position size)
    (notHeader : ¬ (position < 78 * frames.length ∧ position % 78 = 0 ∧ 7 ≤ size))
    (inside : position + size ≤ (wire frames logout).length) :
    contents (readAt (wire frames logout) position size) ≠ dataInText := by
  intro isDataIn
  have enough := size_of_dataIn isDataIn
  by_cases inFrame : position < 78 * frames.length ∧ 8 ≤ position % 78
  · rcases inFrame with ⟨inRecords, low⟩
    have room : 71 ≤ position % 78 ∧ (position % 78 = 71 → 8 ≤ size) := by
      unfold MaySpellHeader at cannot
      omega
    have next := (readAt_eq_text_iff (by decide) _ _ _).mp isDataIn (78 - position % 78)
      (show 78 - position % 78 ≤ 7 by omega)
    rw [if_pos (by omega)] at next
    have letters : ∀ i, 0 < i → i ≤ 7 →
        dataInText.getD i 0 ≠ byte 'd' ∧ dataInText.getD i 0 ≠ byte 'l' := by
      intro i positive small
      interval_cases i <;> decide
    have letter := letters (78 - position % 78) (by omega) (by omega)
    have boundary : (wire frames logout).getD (position + (78 - position % 78)) 0 = byte 'd' ∨ _ :=
      byte_at_boundary (by omega) (by omega)
    rcases boundary with isD | isL | ⟨-, ended⟩
    · exact letter.1 (next.symm.trans isD)
    · exact letter.2 (next.symm.trans isL)
    · omega
  · apply (other_read (fun _ inRecords low => absurd ⟨inRecords, low⟩ inFrame) _ notHeader).2 isDataIn
    rintro ⟨atEnd, logsOut, -⟩
    have start := (first_of_text (by decide) rfl (by decide) isDataIn).2
    rw [endByte (by omega), if_pos logsOut, atEnd, Nat.sub_self] at start
    exact absurd start (by decide)

end Commands

/-! ### A clean cut is clean for all frames -/

theorem recordOf_readsFrame {frames : List Frame} {logout : Bool} {position size : Nat}
    (occurs : position / 78 < frames.length) (reads : ReadsFrame frames.length position size) :
    recordOf (readBuffer (readAt (wire frames logout) position size)) = frames[position / 78] := by
  rcases reads with ⟨-, atFrame, whole⟩
  funext i
  have sameFrame : (position + i.val) / 78 = position / 78 := by omega
  have slot : (position + i.val) % 78 - 8 = i.val := by omega
  rw [recordOf_readAt, if_pos (by omega), frameByte (by omega) (by omega),
    getElem_congr_idx sameFrame]
  simp only [slot]

theorem receivesCleanly_of_cleanCut {frames : List Frame} {logout : Bool} {total : Nat}
    (within : total ≤ (wire frames logout).length) (position : Nat) (sizes : List Nat) :
    position + sizes.sum = total → CleanCut frames.length logout position sizes →
      ReceivesCleanly (frames.take (total / 78))
        (sizes.splitLengths ((wire frames logout).drop position)) := by
  induction position, sizes using CleanCut.induct frames.length logout with
  | case1 => exact fun _ clean => absurd clean (by simp [CleanCut])
  | case2 position size sizes logsOut =>
      intro _ _
      rw [splitLengths_drop]
      exact receivesCleanly_logout (logout_read logsOut.1 logsOut.2.1 logsOut.2.2) _
  | case3 position size notLogout header =>
      intro _ clean
      rw [CleanCut, if_neg notLogout, if_pos header] at clean
      exact clean.elim
  | case4 position size notLogout header frameSize sizes induction =>
      intro cut clean
      rw [CleanCut, if_neg notLogout, if_pos header] at clean
      rw [List.sum_cons, List.sum_cons] at cut
      rw [splitLengths_drop, splitLengths_drop,
        receivesCleanly_record_iff (header_read header.1 header.2.1 header.2.2)]
      refine ⟨?_, induction (by omega) clean.2⟩
      have frame := clean.1
      have occurs : (position + size) / 78 < frames.length := by
        unfold ReadsFrame at frame
        omega
      have isTaken : (position + size) / 78 < (frames.take (total / 78)).length := by
        unfold ReadsFrame at frame
        rw [List.length_take]
        omega
      have member := List.getElem_mem isTaken
      rw [List.getElem_take] at member
      rw [recordOf_readsFrame occurs frame]
      exact member
  | case5 position size sizes notLogout notHeader induction =>
      intro cut clean
      unfold CleanCut at clean
      rw [if_neg notLogout, if_neg notHeader] at clean
      rw [List.sum_cons] at cut
      rw [splitLengths_drop]
      have notDataIn : contents (readAt (wire frames logout) position size) ≠ dataInText :=
        not_dataIn_read clean.1 notHeader (by omega)
      by_cases isLogout : contents (readAt (wire frames logout) position size) = logoutText
      · exact receivesCleanly_logout isLogout _
      · rw [receivesCleanly_other_iff isLogout notDataIn]
        exact induction (by omega) clean.2

/-! ### Frames that betray another cut

Every frame of ones bears one mark, and one of them may spell `data_in`. A read that is
no whole frame then yields none of them. -/

def markedFrame (mark spelled j : Nat) : Frame := fun k =>
  if spelled ≤ 78 * j + 8 + k.val ∧ 78 * j + 8 + k.val < spelled + 8 then
    dataInMessage.getD (78 * j + 8 + k.val - spelled) 0
  else if k.val = mark then 2 else 1

def markedFrames (count mark spelled : Nat) : List Frame :=
  (List.range count).map (markedFrame mark spelled)

section Marked

variable {count mark spelled position size : Nat} {logout : Bool}

@[simp] theorem length_markedFrames : (markedFrames count mark spelled).length = count := by
  simp [markedFrames]

theorem markedByte (inRecords : position < 78 * count) (inFrame : 8 ≤ position % 78) :
    (wire (markedFrames count mark spelled) logout).getD position 0 =
      if spelled ≤ position ∧ position < spelled + 8 then
        dataInMessage.getD (position - spelled) 0
      else if position % 78 = mark + 8 then 2 else 1 := by
  have occurs : position / 78 < (markedFrames count mark spelled).length := by
    rw [length_markedFrames]
    omega
  have entry : (markedFrames count mark spelled)[position / 78] =
      markedFrame mark spelled (position / 78) := by
    simp [markedFrames]
  have here : 78 * (position / 78) + 8 + (position % 78 - 8) = position := by omega
  have sameMark : position % 78 - 8 = mark ↔ position % 78 = mark + 8 := by omega
  rw [frameByte occurs inFrame, entry, markedFrame]
  simp only [here, sameMark]

theorem dataInMessage_ne_two (i : Nat) : dataInMessage.getD i 0 ≠ 2 := by
  rcases Nat.lt_or_ge i 8 with small | large
  · interval_cases i <;> decide
  · rw [List.getD_eq_default _ _ large]
    decide

/-- The mark stands in frames only, each time at its slot. -/
theorem slot_of_mark (isMark : (wire (markedFrames count mark spelled) logout).getD position 0 = 2) :
    position < 78 * count ∧ position % 78 = mark + 8 := by
  rcases Nat.lt_or_ge position (78 * count) with inRecords | behind
  · rcases Nat.lt_or_ge (position % 78) 8 with inHeader | inFrame
    · rw [headerByte (by rwa [length_markedFrames]) inHeader] at isMark
      exact absurd isMark (dataInMessage_ne_two _)
    · rw [markedByte inRecords inFrame] at isMark
      split_ifs at isMark with inText atMark
      · exact absurd isMark (dataInMessage_ne_two _)
      · exact ⟨inRecords, atMark⟩
      · exact absurd isMark (by decide)
  · have logoutBytes : ∀ i, (if logout then logoutMessage else []).getD i 0 ≠ 2 := by
      intro i
      rcases Nat.lt_or_ge i 7 with small | large
      · cases logout <;> interval_cases i <;> decide
      · cases logout <;>
          rw [List.getD_eq_default _ _ (Nat.le_trans (by decide) large)] <;> decide
    rw [endByte (by rwa [length_markedFrames])] at isMark
    exact absurd isMark (logoutBytes _)

/-- What a read would have to bring to be one of the frames. -/
theorem exists_of_mem_marked
    (member : recordOf (readBuffer (readAt (wire (markedFrames count mark spelled) logout)
      position size)) ∈ markedFrames count mark spelled) :
    ∃ j < count, ∀ k < 70,
      (if k < size then
        (wire (markedFrames count mark spelled) logout).getD (position + k) 0 else 0) =
        if spelled ≤ 78 * j + 8 + k ∧ 78 * j + 8 + k < spelled + 8 then
          dataInMessage.getD (78 * j + 8 + k - spelled) 0
        else if k = mark then 2 else 1 := by
  rcases List.mem_map.mp member with ⟨j, inRange, isRecord⟩
  refine ⟨j, List.mem_range.mp inRange, fun k small => ?_⟩
  have slot := congrFun isRecord ⟨k, small⟩
  rw [recordOf_readAt] at slot
  exact slot.symm

/-- The frames are plain in front of the spelled text. -/
theorem plain_before (before : position < spelled) (inRecords : position < 78 * count)
    (inFrame : 8 ≤ position % 78) :
    (wire (markedFrames count mark spelled) logout).getD position 0 ≠ byte 'd' ∧
      (wire (markedFrames count mark spelled) logout).getD position 0 ≠ byte 'l' := by
  rw [markedByte inRecords inFrame, if_neg (by omega)]
  split_ifs <;> decide

theorem spelled_read (may : MaySpellHeader count spelled size) :
    contents (readAt (wire (markedFrames count mark spelled) logout) spelled size) =
      dataInText := by
  rcases may with ⟨inRecords, inFrame, room⟩
  rw [readAt_eq_text_iff (by decide)]
  intro i within
  have small : i ≤ 7 := within
  have same : dataInMessage.getD i 0 = dataInText.getD i 0 := by
    interval_cases i <;> rfl
  split_ifs with inRead
  · rw [markedByte (by omega) (by omega), if_pos (by omega), Nat.add_sub_cancel_left, same]
  · have last : i = 7 := by omega
    rw [last]
    rfl

/-- Marked at their ends, the frames are told apart from all that is no whole frame. -/
theorem not_mem_marked_last (apart : 78 * count ≤ spelled ∨ spelled % 78 = 8)
    (noFrame : ¬ ReadsFrame count position size) :
    recordOf (readBuffer (readAt (wire (markedFrames count 69 spelled) logout) position size)) ∉
      markedFrames count 69 spelled := by
  intro member
  rcases exists_of_mem_marked member with ⟨j, occurs, same⟩
  have last := same 69 (by decide)
  rw [if_neg (c := _ ∧ _) (by omega), if_pos rfl] at last
  split_ifs at last with whole
  · rcases slot_of_mark last with ⟨inRecords, atMark⟩
    apply noFrame
    unfold ReadsFrame
    omega
  · exact absurd last (by decide)

/-- Marked at their starts they are, too, behind a text that begins later in its frame. -/
theorem not_mem_marked_first {textSize : Nat} (may : MaySpellHeader count spelled textSize)
    (later : spelled % 78 ≠ 8) (behind : spelled + 7 ≤ position)
    (noFrame : ¬ ReadsFrame count position size) :
    recordOf (readBuffer (readAt (wire (markedFrames count 0 spelled) logout) position size)) ∉
      markedFrames count 0 spelled := by
  intro member
  rcases may with ⟨-, inFrame, room⟩
  rcases exists_of_mem_marked member with ⟨j, occurs, same⟩
  have first := same 0 (by decide)
  rw [if_neg (c := _ ∧ _) (by omega), if_pos rfl] at first
  split_ifs at first with some
  · rcases slot_of_mark first with ⟨inRecords, atMark⟩
    have short : ¬ 69 < size := by
      unfold ReadsFrame at noFrame
      omega
    -- The read is too short for the last slot, and only the NUL of the text is a zero.
    have last := same 69 (by decide)
    rw [if_neg short] at last
    split_ifs at last with inText
    · have letters : ∀ i < 8, (0 : Byte) = dataInMessage.getD i 0 → i = 7 := by
        intro i small isNul
        interval_cases i <;> first | rfl | exact absurd isNul (by decide)
      have terminator := letters _ (by omega) last
      -- So the text starts at slot 62 of a frame that lies in front of the read.
      have start := same 62 (by decide)
      rw [if_pos (c := _ ∧ _) (by omega), show 78 * j + 8 + 62 - spelled = 0 by omega] at start
      split_ifs at start with inRead
      · rw [markedByte (by omega) (by omega), if_neg (by omega)] at start
        split_ifs at start <;> exact absurd start (by decide)
      · exact absurd start (by decide)
    all_goals exact absurd last (by decide)
  · exact absurd first (by decide)

/-- For some marked frames the reads from a position on are not clean. Their text, if
they spell one, stands where the reads in front of it have not come to. -/
def FailsFrom (count : Nat) (logout : Bool) (position : Nat) (sizes : List Nat) : Prop :=
  ∃ mark spelled, position ≤ spelled ∧ ∀ more,
    ¬ ReceivesCleanly (markedFrames count mark spelled)
      (sizes.splitLengths ((wire (markedFrames count mark spelled) logout).drop position) ++
        List.replicate more [])

/-- A read that is taken for no command changes nothing. -/
theorem FailsFrom.skip {sizes : List Nat} (fails : FailsFrom count logout (position + size) sizes)
    (notLogout : ¬ (position = 78 * count ∧ logout = true ∧ 6 ≤ size))
    (notHeader : ¬ (position < 78 * count ∧ position % 78 = 0 ∧ 7 ≤ size)) :
    FailsFrom count logout position (size :: sizes) := by
  rcases fails with ⟨mark, spelled, later, fails⟩
  refine ⟨mark, spelled, Nat.le_of_add_right_le later, fun more clean => fails more ?_⟩
  have other : contents (readAt (wire (markedFrames count mark spelled) logout) position size) ≠
      logoutText ∧ _ :=
    other_read
      (fun some inRecords inFrame =>
        plain_before (by omega) (by rwa [length_markedFrames] at inRecords) inFrame)
      (by rwa [length_markedFrames]) (by rwa [length_markedFrames])
  rw [splitLengths_drop] at clean
  exact (receivesCleanly_other_iff other.1 other.2 _).mp clean

/-- Behind a header the stream ends, or no frame is read. -/
theorem failsFrom_header {sizes : List Nat}
    (header : position < 78 * count ∧ position % 78 = 0 ∧ 7 ≤ size)
    (noFrame : ∀ frameSize ∈ sizes.head?, ¬ ReadsFrame count (position + size) frameSize) :
    FailsFrom count logout position (size :: sizes) := by
  refine ⟨69, position + 78 * count, by omega, fun more clean => ?_⟩
  have isDataIn : contents (readAt (wire (markedFrames count 69 (position + 78 * count)) logout)
      position size) = dataInText :=
    header_read (by rw [length_markedFrames]; exact header.1) header.2.1 header.2.2
  rw [splitLengths_drop] at clean
  cases sizes with
  | nil => exact not_receivesCleanly_headerLast isDataIn more clean
  | cons frameSize sizes =>
      rw [splitLengths_drop] at clean
      exact not_mem_marked_last (.inl (by omega)) (noFrame frameSize rfl)
        ((receivesCleanly_record_iff isDataIn _ _).mp clean).1

/-- A frame spells a header, and behind that the stream ends, or no frame is read. -/
theorem failsFrom_spelled {sizes : List Nat} (may : MaySpellHeader count position size)
    (noFrame : ∀ frameSize ∈ sizes.head?, ¬ ReadsFrame count (position + size) frameSize) :
    FailsFrom count logout position (size :: sizes) := by
  have enough : 7 ≤ size := by
    unfold MaySpellHeader at may
    omega
  cases sizes with
  | nil =>
      refine ⟨69, position, Nat.le_refl _, fun more => ?_⟩
      rw [splitLengths_drop, List.splitLengths_nil]
      exact not_receivesCleanly_headerLast (spelled_read may) more
  | cons frameSize sizes =>
      by_cases atStart : position % 78 = 8
      · refine ⟨69, position, Nat.le_refl _, fun more clean => ?_⟩
        rw [splitLengths_drop, splitLengths_drop] at clean
        exact not_mem_marked_last (.inr atStart) (noFrame frameSize rfl)
          ((receivesCleanly_record_iff (spelled_read may) _ _).mp clean).1
      · refine ⟨0, position, Nat.le_refl _, fun more clean => ?_⟩
        rw [splitLengths_drop, splitLengths_drop] at clean
        exact not_mem_marked_first may atStart (by omega) (noFrame frameSize rfl)
          ((receivesCleanly_record_iff (spelled_read may) _ _).mp clean).1

/-- The read of a whole frame could be taken for a header itself. -/
theorem not_cleanCut_frame {sizes : List Nat} (frame : ReadsFrame count position size) :
    ¬ CleanCut count logout position (size :: sizes) := by
  unfold ReadsFrame at frame
  have may : MaySpellHeader count position size := by
    unfold MaySpellHeader
    omega
  unfold CleanCut
  rw [if_neg (by omega), if_neg (by omega)]
  exact fun clean => clean.1 may

theorem failsFrom_of_not_cleanCut (position : Nat) (sizes : List Nat) :
    ¬ CleanCut count logout position sizes → FailsFrom count logout position sizes := by
  induction position, sizes using CleanCut.induct count logout with
  | case1 position =>
      exact fun _ => ⟨69, position, Nat.le_refl _, fun more => not_receivesCleanly_replicate _ more⟩
  | case2 position size sizes logsOut =>
      intro unclean
      unfold CleanCut at unclean
      rw [if_pos logsOut] at unclean
      exact absurd trivial unclean
  | case3 position size notLogout header =>
      exact fun _ => failsFrom_header header fun frameSize member => by cases member
  | case4 position size notLogout header frameSize sizes induction =>
      intro unclean
      rw [CleanCut, if_neg notLogout, if_pos header] at unclean
      by_cases frame : ReadsFrame count (position + size) frameSize
      · rcases induction fun clean => unclean ⟨frame, clean⟩ with ⟨mark, spelled, later, fails⟩
        refine ⟨mark, spelled, by omega, fun more clean => fails more ?_⟩
        have isDataIn : contents (readAt (wire (markedFrames count mark spelled) logout)
            position size) = dataInText :=
          header_read (by rw [length_markedFrames]; exact header.1) header.2.1 header.2.2
        rw [splitLengths_drop, splitLengths_drop] at clean
        exact ((receivesCleanly_record_iff isDataIn _ _).mp clean).2
      · apply failsFrom_header header
        intro found member
        cases member
        exact frame
  | case5 position size sizes notLogout notHeader induction =>
      intro unclean
      unfold CleanCut at unclean
      rw [if_neg notLogout, if_neg notHeader] at unclean
      by_cases may : MaySpellHeader count position size
      · by_cases next : ∃ frameSize ∈ sizes.head?, ReadsFrame count (position + size) frameSize
        · rcases next with ⟨frameSize, isHead, frame⟩
          rcases List.head?_eq_some_iff.mp isHead with ⟨rest, isCons⟩
          subst isCons
          exact (induction (not_cleanCut_frame frame)).skip notLogout notHeader
        · exact failsFrom_spelled may fun frameSize member frame => next ⟨frameSize, member, frame⟩
      · exact (induction fun clean => unclean ⟨may, clean⟩).skip notLogout notHeader

end Marked

/-! ## The receiver -/

/-- The receiver ends with nothing invented in its file for exactly the reads that bring
a frame behind each header up to a logout. For a way of cutting the client's stream that
is so, whatever the frames are, exactly if no read behind a header misses its frame, and
none inside a frame can be taken for a header. -/
theorem endsCleanly_iff (history : List Frame) (memory : ServerMemory)
    (earlier : FileLeftByRuns history memory.inputTxt) :
    (∀ reads, EndsCleanly memory reads ↔ CleanSession (framesIn reads.flatten) reads) ∧
      ∀ (count : Nat) (logout : Bool) (sizes : List Nat),
        CutsFront sizes (78 * count + if logout then 7 else 0) →
          ((∀ frames : List Frame, frames.length = count →
              EndsCleanly memory (sizes.splitLengths (wire frames logout))) ↔
            CleanCut count logout 0 sizes) := by
  have ends := fun reads => (endsCleanly_iff_receivesCleanly earlier.leftBy reads).trans
    (receivesCleanly_iff (framesIn reads.flatten) reads)
  refine ⟨ends, ?_⟩
  intro count logout sizes cuts
  have inStream : ∀ frames, framesIn (sizes.splitLengths (wire frames logout)).flatten =
      frames.take (sizes.sum / 78) := by
    intro frames
    rw [flatten_splitLengths_take, framesIn_take_wire]
  constructor
  · intro clean
    by_contra unclean
    rcases failsFrom_of_not_cleanCut 0 sizes unclean with ⟨mark, spelled, -, fails⟩
    rcases (endsCleanly_iff_receivesCleanly earlier.leftBy _).mp
      (clean (markedFrames count mark spelled) length_markedFrames) with ⟨more, left, stored⟩
    apply fails more
    rw [List.drop_zero]
    refine ⟨left, fun record member => ?_⟩
    have isFrame := stored record member
    rw [inStream] at isFrame
    exact List.mem_of_mem_take isFrame
  · intro clean frames length
    have within : sizes.sum ≤ (wire frames logout).length := by
      rw [length_wire_eq, length]
      exact cuts.within
    have receives := receivesCleanly_of_cleanCut within 0 sizes (Nat.zero_add _) (length ▸ clean)
    rw [List.drop_zero] at receives
    refine (endsCleanly_iff_receivesCleanly earlier.leftBy _).mpr ⟨0, ?_⟩
    rw [inStream, List.replicate_zero, List.append_nil]
    exact receives

/-- A record and a logout read message by message, and three records of which one read
swallows the second one, with the next header behind it. -/
theorem endsCleanly_short_sessions :
    EndsCleanly .initial [dataInMessage, (constantFrame 7).bytes, logoutMessage] ∧
      ∀ frames : List Frame, frames.length = 3 →
        EndsCleanly .initial ([8, 70, 86, 70, 6].splitLengths (wire frames true)) := by
  rcases endsCleanly_iff [] .initial .empty with ⟨session, cut⟩
  constructor
  · apply (session _).mpr
    have isFrame : constantFrame 7 ∈
        framesIn [dataInMessage, (constantFrame 7).bytes, logoutMessage].flatten := by
      rw [List.flatten_cons, List.flatten_cons, framesIn_record]
      exact List.mem_cons_self
    refine .record contents_dataInMessage ?_ (.logout contents_logoutMessage)
    rw [recordOf_readBuffer_bytes]
    exact isFrame
  · apply (cut 3 true [8, 70, 86, 70, 6] ⟨by decide, by decide, by decide⟩).mpr
    simp [CleanCut, ReadsFrame]

/-- The link drops between a header and its frame. -/
theorem dropped_link_not_clean : ¬ ∀ (history : List Frame) (memory : ServerMemory),
    FileLeftByRuns history memory.inputTxt → ∀ reads, EndsCleanly memory reads := by
  intro ends
  rcases (endsCleanly_iff_receivesCleanly FileLeftByRuns.empty.leftBy _).mp
    (ends [] .initial .empty [dataInMessage]) with ⟨count, clean⟩
  exact not_receivesCleanly_headerLast contents_dataInMessage count clean

end GamZ.Server
