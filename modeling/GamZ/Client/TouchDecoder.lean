import GamZ.Foundation.Transition
import Mathlib.Data.List.Induction
import Mathlib.Tactic.SplitIfs

/-! # Decoding the touch events

`set_process` reads up to three events into `iev` and recognises a touch by the types of
the three entries, whatever part of them the read has filled in. It depends on how the
reads divide the packets whether it sees a contact begin and end. -/

namespace GamZ.Client

open Transition TransitionSystem

/-- The fields of `struct input_event` that are read. -/
structure InputEvent where
  type : Nat
  value : Int
deriving DecidableEq, Repr

namespace InputEvent

/-- `EV_SYN` -/
def syn (value : Int) : InputEvent where
  type := 0
  value := value

/-- `EV_KEY` -/
def key (value : Int) : InputEvent where
  type := 1
  value := value

/-- `EV_ABS` -/
def abs (value : Int) : InputEvent where
  type := 3
  value := value

end InputEvent

/-! ## The decoder -/

structure Touch where
  tX : Int
  tY : Int
  deep : Bool
deriving DecidableEq, Repr

/-- `struct input_event iev[3];` -/
abbrev InputBuffer := Fin 3 → InputEvent

/-- What a read leaves in the buffer. -/
def InputBuffer.read (iev : InputBuffer) (events : List InputEvent) : InputBuffer :=
  fun index => events[index.val]?.getD (iev index)

/-- The three states that are told apart. -/
inductive TouchState
  | pressed
  | held
  | released
deriving DecidableEq, Repr

def InputBuffer.recognise (iev : InputBuffer) : Option TouchState :=
  if (iev 0).type = 1 ∧ (iev 1).type = 3 ∧ (iev 2).type = 3 then some .pressed
  else if (iev 0).type = 0 ∧ (iev 1).type = 1 ∧ (iev 2).type = 0 then some .released
  else if (iev 0).type = 0 ∧ (iev 1).type = 3 ∧ (iev 2).type = 0 ∨
      (iev 0).type = 3 ∧ (iev 1).type = 3 ∧ (iev 2).type = 0 then
    some .held
  else none

def Touch.decode (touch : Touch) (iev : InputBuffer) : Touch :=
  match iev.recognise with
  | some .pressed => { touch with tX := (iev 1).value, tY := (iev 2).value }
  | some .released => { touch with deep := false }
  | some .held => { touch with deep := true }
  | none => touch

/-! ## The events of contacts -/

inductive Move
  | oneAxis (value report : Int)
  | twoAxes (x y report : Int)

def Move.events : Move → List InputEvent
  | .oneAxis value report => [.abs value, .syn report]
  | .twoAxes x y report => [.abs x, .abs y, .syn report]

/-- A contact with the values of its events. Its coordinates are `x` and `y`. -/
structure Contact where
  press : Int
  x : Int
  y : Int
  report : Int
  moves : List Move
  lift : Int
  lastReport : Int

/-- What an event is to its contact. -/
inductive Place
  /-- The first event of the down packet. -/
  | down
  | within
  /-- The first event of the up packet. -/
  | up
  | last
deriving DecidableEq, Repr

/-- An event with the contact that is in progress once it is delivered. -/
structure Delivery where
  event : InputEvent
  place : Place
  contact : Option Contact

def Contact.within (contact : Contact) (event : InputEvent) : Delivery where
  event := event
  place := .within
  contact := some contact

/-- What comes between the first three events and the up packet. -/
def Contact.middle (contact : Contact) : List InputEvent :=
  .syn contact.report :: contact.moves.flatMap Move.events

def Contact.upPacket (contact : Contact) : List Delivery :=
  [{ event := .key contact.lift, place := .up, contact := some contact },
    { event := .syn contact.lastReport, place := .last, contact := none }]

def Contact.deliveries (contact : Contact) : List Delivery :=
  { event := .key contact.press, place := .down, contact := some contact } ::
    contact.within (.abs contact.x) :: contact.within (.abs contact.y) ::
      (contact.middle.map contact.within ++ contact.upPacket)

/-- `set_process` between two reads, the events to come, the contact in progress, and
whether the last read has consumed an up packet. -/
structure DecoderState where
  iev : InputBuffer
  touch : Touch
  pending : List Delivery
  contact : Option Contact
  lifted : Bool

/-- The contact in progress after some events. -/
def contactAfter (contact : Option Contact) : List Delivery → Option Contact
  | [] => contact
  | delivery :: deliveries => contactAfter delivery.contact deliveries

def endsContact (deliveries : List Delivery) : Bool :=
  deliveries.any fun delivery => delivery.place == .last

def DecoderState.buffer (state : DecoderState) (count : Nat) : InputBuffer :=
  state.iev.read ((state.pending.take count).map Delivery.event)

def DecoderState.read (state : DecoderState) (count : Nat) : DecoderState where
  iev := state.buffer count
  touch := state.touch.decode (state.buffer count)
  pending := state.pending.drop count
  contact := contactAfter state.contact (state.pending.take count)
  lifted := endsContact (state.pending.take count)

/-- The buffer holds anything at the start. -/
def decoder : TransitionSystem DecoderState Nat where
  Initial state :=
    (∃ contacts : List Contact, state.pending = contacts.flatMap Contact.deliveries) ∧
      state.touch = { tX := 0, tY := 0, deep := false } ∧ state.contact = none ∧
      state.lifted = false
  step state count :=
    if 1 ≤ count ∧ count ≤ 3 ∧ count ≤ state.pending.length then some (state.read count) else none

/-! ## Tracking a contact -/

def IsAt (contact : Option Contact) (tX tY : Int) : Prop :=
  ∃ current, contact = some current ∧ tX = current.x ∧ tY = current.y

structure TracksContact (state : DecoderState) : Prop where
  lifted : state.lifted = true → state.touch.deep = false
  deep : state.touch.deep = true → IsAt state.contact state.touch.tX state.touch.tY

/-- What may come as the event of index `i` of a read: the first three events of a
contact come in a read of their own, and an up packet comes in one read, with `deep` set
behind another event. -/
def Place.MayCome (place : Place) (deep : Bool) (count i : Nat) : Prop :=
  match place with
  | .down => i = 0 ∧ count = 3
  | .up => i + 1 < count ∧ (deep = true → 0 < i)
  | .within | .last => True

instance (place : Place) (deep : Bool) (count i : Nat) :
    Decidable (place.MayCome deep count i) := by
  cases place <;> unfold Place.MayCome <;> infer_instance

/-- The read divides no packet in a way that matters. -/
def KeepsPackets (state : DecoderState) (count : Nat) : Prop :=
  ∀ i < count, ∀ delivery ∈ state.pending[i]?,
    delivery.place.MayCome state.touch.deep count i

instance (state : DecoderState) (count : Nat) : Decidable (KeepsPackets state count) := by
  unfold KeepsPackets
  infer_instance

/-! ## Between and within contacts -/

/-- What an event between the first three events of a contact and its up packet can be. -/
def IsMoveEvent (event : InputEvent) : Prop :=
  event.type = 0 ∨ event.type = 3

/-- No contact is in progress. -/
structure Between (state : DecoderState) : Prop where
  pending : ∃ contacts : List Contact, state.pending = contacts.flatMap Contact.deliveries
  released : state.touch.deep = false

/-- The first three events of the contact are decoded, the up packet is still to come. -/
structure Within (current : Contact) (state : DecoderState) : Prop where
  pending : ∃ (middle : List InputEvent) (contacts : List Contact),
    state.pending = middle.map current.within ++
      (current.upPacket ++ contacts.flatMap Contact.deliveries) ∧
    (∀ event ∈ middle, IsMoveEvent event) ∧ ∀ event ∈ middle.getLast?, event.type = 0
  contact : state.contact = some current
  notLifted : state.lifted = false
  coordinates : state.touch.tX = current.x ∧ state.touch.tY = current.y

def Follows (state : DecoderState) : Prop :=
  Between state ∨ ∃ current, Within current state

theorem Follows.tracksContact {state : DecoderState} (follows : Follows state) :
    TracksContact state := by
  rcases follows with between | ⟨current, within⟩
  · refine ⟨fun _ => between.released, fun deep => ?_⟩
    rw [between.released] at deep
    cases deep
  · refine ⟨fun lifted => ?_, fun _ => ⟨current, within.contact, within.coordinates⟩⟩
    rw [within.notLifted] at lifted
    cases lifted

theorem isMoveEvent_middle (contact : Contact) : ∀ event ∈ contact.middle, IsMoveEvent event := by
  intro event member
  rcases List.mem_cons.mp member with report | moved
  · rw [report]
    exact .inl rfl
  · rcases List.mem_flatMap.mp moved with ⟨move, -, inMove⟩
    cases move <;> simp only [Move.events, List.mem_cons, List.not_mem_nil, or_false] at inMove
    · rcases inMove with rfl | rfl
      · exact .inr rfl
      · exact .inl rfl
    · rcases inMove with rfl | rfl | rfl
      · exact .inr rfl
      · exact .inr rfl
      · exact .inl rfl

/-- The packet in front of the up packet ends with its report. -/
theorem last_middle (contact : Contact) : ∀ event ∈ contact.middle.getLast?, event.type = 0 := by
  unfold Contact.middle
  induction contact.moves using List.reverseRecOn with
  | nil =>
      intro event isLast
      cases isLast
      rfl
  | append_singleton moves move _ =>
      intro event isLast
      rw [List.flatMap_append, List.flatMap_singleton, ← List.cons_append,
        List.getLast?_append] at isLast
      cases move <;> cases isLast <;> rfl

/-! ## Reads -/

section Reads

variable {state : DecoderState} {count : Nat}

/-- New entries come from the front of the stream. -/
theorem buffer_new (i : Fin 3) {delivery : Delivery} (inRead : i.val < count)
    (isNext : state.pending[i.val]? = some delivery) : state.buffer count i = delivery.event := by
  rw [DecoderState.buffer, InputBuffer.read, List.getElem?_map, List.getElem?_take,
    if_pos inRead, isNext]
  rfl

/-- The coordinates are stored at the first three events of a contact only. -/
theorem decode_coordinates (touch : Touch) {iev : InputBuffer} (notKey : (iev 0).type ≠ 1) :
    (touch.decode iev).tX = touch.tX ∧ (touch.decode iev).tY = touch.tY := by
  rw [Touch.decode, InputBuffer.recognise, if_neg fun pressed => notKey pressed.1]
  split_ifs <;> exact ⟨rfl, rfl⟩

theorem decode_pressed (touch : Touch) {iev : InputBuffer} (key : (iev 0).type = 1)
    (first : (iev 1).type = 3) (second : (iev 2).type = 3) :
    touch.decode iev = { touch with tX := (iev 1).value, tY := (iev 2).value } := by
  rw [Touch.decode, InputBuffer.recognise, if_pos ⟨key, first, second⟩]

theorem decode_released (touch : Touch) {iev : InputBuffer} (report : (iev 0).type = 0)
    (key : (iev 1).type = 1) (last : (iev 2).type = 0) :
    touch.decode iev = { touch with deep := false } := by
  rw [Touch.decode, InputBuffer.recognise, if_neg (by omega), if_pos ⟨report, key, last⟩]

/-- A key event in front is no move. -/
theorem decode_deep_of_key (touch : Touch) {iev : InputBuffer} (key : (iev 0).type = 1) :
    (touch.decode iev).deep = touch.deep := by
  rw [Touch.decode, InputBuffer.recognise]
  split_ifs with pressed released held
  · rfl
  · omega
  · omega
  · rfl

theorem contactAfter_within (current : Contact) (events : List InputEvent) :
    contactAfter (some current) (events.map current.within) = some current := by
  induction events with
  | nil => rfl
  | cons event events induction => exact induction

theorem not_endsContact_within (current : Contact) (events : List InputEvent) :
    endsContact (events.map current.within) = false := by
  induction events with
  | nil => rfl
  | cons event events induction => exact induction

/-- A contact begins. -/
theorem Between.read (between : Between state) (keeps : KeepsPackets state count)
    (some : 1 ≤ count) (enough : count ≤ state.pending.length) :
    ∃ current, Within current (state.read count) := by
  rcases between.pending with ⟨contacts, pending⟩
  cases contacts with
  | nil =>
      rw [pending, List.flatMap_nil, List.length_nil] at enough
      omega
  | cons current contacts =>
      rw [List.flatMap_cons, Contact.deliveries] at pending
      have three := keeps 0 some
        { event := .key current.press, place := .down, contact := .some current }
        (by rw [pending]; rfl)
      have count3 : count = 3 := three.2
      subst count3
      have key : state.buffer 3 0 = .key current.press :=
        buffer_new 0 (show 0 < 3 by decide) (by rw [pending]; rfl)
      have atX : state.buffer 3 1 = .abs current.x :=
        buffer_new 1 (show 1 < 3 by decide) (by rw [pending]; rfl)
      have atY : state.buffer 3 2 = .abs current.y :=
        buffer_new 2 (show 2 < 3 by decide) (by rw [pending]; rfl)
      have pressed := decode_pressed state.touch (congrArg InputEvent.type key)
        (congrArg InputEvent.type atX) (congrArg InputEvent.type atY)
      refine ⟨current, ⟨current.middle, contacts, ?_, isMoveEvent_middle current,
        last_middle current⟩, ?_, ?_, ?_⟩
      · rw [DecoderState.read, pending, ← List.append_assoc]
        rfl
      · rw [DecoderState.read, pending]
        rfl
      · rw [DecoderState.read, pending]
        rfl
      · rw [DecoderState.read, pressed, atX, atY]
        exact ⟨rfl, rfl⟩

/-- A read of events between the first three and the up packet. -/
theorem Within.readMiddle {current : Contact} (within : Within current state)
    {middle : List InputEvent} {rest : List Delivery}
    (pending : state.pending = middle.map current.within ++ rest)
    (moves : ∀ event ∈ middle, IsMoveEvent event) (some : 1 ≤ count)
    (inMiddle : count ≤ middle.length) :
    (state.read count).contact = .some current ∧ (state.read count).lifted = false ∧
      (state.read count).touch.tX = current.x ∧ (state.read count).touch.tY = current.y := by
  have taken : state.pending.take count = (middle.take count).map current.within := by
    rw [pending, List.take_append_of_le_length (by rwa [List.length_map]), List.map_take]
  have occurs : 0 < middle.length := by omega
  have first : state.buffer count 0 = middle[0] := by
    have isNext : state.pending[0]? = current.within middle[0] := by
      rw [pending, List.getElem?_append_left (by rwa [List.length_map])]
      simp [occurs]
    exact buffer_new 0 some isNext
  have notKey : (state.buffer count 0).type ≠ 1 := by
    have isMove := moves middle[0] (List.getElem_mem occurs)
    rw [first]
    unfold IsMoveEvent at isMove
    omega
  have kept := decode_coordinates state.touch notKey
  refine ⟨?_, ?_, ?_⟩
  · rw [DecoderState.read, taken, within.contact]
    exact contactAfter_within current _
  · rw [DecoderState.read, taken]
    exact not_endsContact_within current _
  · exact ⟨kept.1.trans within.coordinates.1, kept.2.trans within.coordinates.2⟩

/-- An up packet in front of a read is not recognised, but `deep` is not set then. -/
theorem upInFront {current : Contact} {contacts : List Contact}
    (pending : state.pending = current.upPacket ++ contacts.flatMap Contact.deliveries)
    (keeps : KeepsPackets state count) (some : 1 ≤ count) (few : count ≤ 3)
    (enough : count ≤ state.pending.length) : Between (state.read count) := by
  have whole : 1 < count ∧ (state.touch.deep = true → 0 < 0) :=
    keeps 0 some { event := .key current.lift, place := .up, contact := .some current }
      (by rw [pending]; rfl)
  have released : state.touch.deep = false := by
    rw [← Bool.not_eq_true]
    exact fun deep => Nat.lt_irrefl 0 (whole.2 deep)
  have count2 : count = 2 := by
    by_contra isNot
    have count3 : count = 3 := by
      have more : 1 < count := whole.1
      omega
    subst count3
    cases contacts with
    | nil =>
        rw [pending] at enough
        exact absurd enough (show ¬ 3 ≤ 2 by decide)
    | cons next contacts =>
        have inFront := keeps 2 (by decide)
          { event := .key next.press, place := .down, contact := .some next }
          (by rw [pending]; rfl)
        cases inFront.1
  subst count2
  have key : state.buffer 2 0 = .key current.lift :=
    buffer_new 0 (show 0 < 2 by decide) (by rw [pending]; rfl)
  refine ⟨⟨contacts, ?_⟩, ?_⟩
  · rw [DecoderState.read, pending]
    rfl
  · exact (decode_deep_of_key state.touch (congrArg InputEvent.type key)).trans released

/-- Behind the report of the packet before it an up packet is recognised. -/
theorem upBehind {current : Contact} {event : InputEvent} {contacts : List Contact}
    (pending : state.pending = current.within event ::
      (current.upPacket ++ contacts.flatMap Contact.deliveries))
    (isReport : event.type = 0) : Between (state.read 3) := by
  have report : state.buffer 3 0 = event :=
    buffer_new 0 (show 0 < 3 by decide) (by rw [pending]; rfl)
  have key : state.buffer 3 1 = .key current.lift :=
    buffer_new 1 (show 1 < 3 by decide) (by rw [pending]; rfl)
  have lastReport : state.buffer 3 2 = .syn current.lastReport :=
    buffer_new 2 (show 2 < 3 by decide) (by rw [pending]; rfl)
  have released := decode_released state.touch
    ((congrArg InputEvent.type report).trans isReport)
    (congrArg InputEvent.type key) (congrArg InputEvent.type lastReport)
  refine ⟨⟨contacts, ?_⟩, ?_⟩
  · rw [DecoderState.read, pending]
    rfl
  · rw [DecoderState.read, released]

/-- A read that reaches the up packet. -/
theorem Within.readUp {current : Contact} {middle : List InputEvent} {contacts : List Contact}
    (pending : state.pending = middle.map current.within ++
      (current.upPacket ++ contacts.flatMap Contact.deliveries))
    (last : ∀ event ∈ middle.getLast?, event.type = 0) (keeps : KeepsPackets state count)
    (few : count ≤ 3) (enough : count ≤ state.pending.length)
    (reaches : middle.length < count) : Between (state.read count) := by
  have whole : middle.length + 1 < count ∧ (state.touch.deep = true → 0 < middle.length) := by
    refine keeps middle.length reaches
      { event := .key current.lift, place := .up, contact := some current } ?_
    rw [pending, List.getElem?_append_right (by simp), List.length_map, Nat.sub_self]
    rfl
  cases middle with
  | nil => exact upInFront pending keeps (Nat.one_le_of_lt reaches) few enough
  | cons event middle =>
      have two : middle.length + 1 + 1 < count := whole.1
      have alone : middle = [] := List.eq_nil_of_length_eq_zero (by omega)
      have count3 : count = 3 := by omega
      subst alone count3
      exact upBehind pending (last event rfl)

/-- A contact goes on or ends. -/
theorem Within.read {current : Contact} (within : Within current state)
    (keeps : KeepsPackets state count) (some : 1 ≤ count) (few : count ≤ 3)
    (enough : count ≤ state.pending.length) : Follows (state.read count) := by
  rcases within.pending with ⟨middle, contacts, pending, moves, last⟩
  rcases Nat.lt_or_ge middle.length count with reaches | inMiddle
  · exact .inl (Within.readUp pending last keeps few enough reaches)
  · right
    rcases within.readMiddle pending moves some inMiddle with ⟨contact, notLifted, coordinates⟩
    refine ⟨current, ⟨middle.drop count, contacts, ?_, ?_, ?_⟩, contact, notLifted, coordinates⟩
    · rw [DecoderState.read, pending, List.drop_append_of_le_length (by rwa [List.length_map]),
        List.map_drop]
    · exact fun event member => moves event (List.mem_of_mem_drop member)
    · intro event isLast
      rw [List.getLast?_drop] at isLast
      split_ifs at isLast
      · cases isLast
      · exact last event isLast

end Reads

theorem follows_of_run (counts : List Nat) (state : DecoderState)
    (run : decoder.RunWhere KeepsPackets counts state) : Follows state := by
  apply RunWhere.invariant (fun _ state => Follows state) _ _ run
  · intro state initial
    rcases initial with ⟨contacts, touch, -, -⟩
    exact .inl ⟨contacts, by rw [touch]⟩
  · intro _ state count _ follows keeps stepped
    simp only [decoder] at stepped
    split at stepped
    case isFalse => cases stepped
    case isTrue fits =>
        cases stepped
        rcases fits with ⟨some, few, enough⟩
        rcases follows with between | ⟨current, within⟩
        · exact .inr (between.read keeps some enough)
        · exact within.read keeps some few enough

/-- The decoder tracks the contacts in all states of a run that reads the first three
events of each contact at once, and each up packet in one read, behind another event if
`deep` is set. -/
theorem tracksContact_of_keepsPackets (counts : List Nat) (state : DecoderState)
    (run : decoder.RunWhere KeepsPackets counts state) :
    decoder.RunThrough TracksContact counts state :=
  run.through fun counts state run => (follows_of_run counts state run).tracksContact

/-- A buffer of reports, nothing decoded and no contact in progress. -/
def DecoderState.start (contacts : List Contact) : DecoderState where
  iev := fun _ => .syn 0
  touch := { tX := 0, tY := 0, deep := false }
  pending := contacts.flatMap Contact.deliveries
  contact := none
  lifted := false

theorem decoder_start (contacts : List Contact) : decoder.Initial (.start contacts) :=
  ⟨⟨contacts, rfl⟩, rfl, rfl, rfl⟩

def drag : Contact where
  press := 1
  x := 20
  y := 10
  report := 0
  moves := [.twoAxes 24 12 0, .oneAxis 26 0]
  lift := 0
  lastReport := 0

def swipe : Contact where
  press := 1
  x := 90
  y := 40
  report := 0
  moves := [.twoAxes 92 44 0]
  lift := 0
  lastReport := 0

/-- The drag is released behind the report of its last move, and the swipe is in progress
at the end. -/
theorem drag_and_swipe_tracked :
    ∃ state, decoder.RunWhere KeepsPackets [3, 1, 3, 1, 3, 3, 1, 3] state ∧
      state.touch = { tX := 90, tY := 40, deep := true } ∧
      decoder.RunThrough TracksContact [3, 1, 3, 1, 3, 3, 1, 3] state := by
  have executed :
      (decoder.executeWhere KeepsPackets (.start [drag, swipe]) [3, 1, 3, 1, 3, 3, 1, 3]).any
        (fun state => state.touch == { tX := 90, tY := 40, deep := true }) = true := by
    decide +kernel
  rcases exists_runWhere _ (decoder_start [drag, swipe]) executed with ⟨state, run, touch⟩
  exact ⟨state, run, by simpa using touch, tracksContact_of_keepsPackets _ _ run⟩

/-- One axis moves. -/
def slide : Contact where
  press := 1
  x := 20
  y := 10
  report := 0
  moves := [.oneAxis 21 0]
  lift := 0
  lastReport := 0

/-- Read three events at a time, the slide shifts the packets in the buffer and its
release is not recognised. -/
theorem slide_never_released :
    ¬ ∀ (counts : List Nat) (state : DecoderState), decoder.Run counts state →
      TracksContact state := by
  intro alwaysTracks
  have executed : (decoder.execute (.start [slide]) [3, 3, 2]).any
      (fun state => state.lifted && state.touch.deep) = true := by
    decide +kernel
  rcases exists_run _ (decoder_start [slide]) executed with ⟨state, run, missed⟩
  rw [Bool.and_eq_true] at missed
  cases missed.2.symm.trans ((alwaysTracks _ state run).lifted missed.1)

end GamZ.Client
