import DTChat.NodeRun
import DTChat.TimelineRows
import DTChat.Lib.DecimalText
import DTChat.Lib.Growth

namespace DTChat.MessageList
open ClockTime Utf8Text DecimalText PeerMessages WireCodec SortedInsert ChatModels MessageOrder SocketControllers NodeLetters Runs Growth
open TimelineRows (Color getColor)
open NodeRun (Machine NodeEvent Steps step step_parts Observed Wired boot boot_wired step_wired earth moon earthListener loopback)
open WireRoundTrip (epoch)

-- utils/time.rs, and the hour, minute and second chrono takes from it: in a leap second the second runs to 60.
def jstOffset : Int := 9*3600

structure Clock where
  hour : Nat
  minute : Nat
  second : Nat
  deriving DecidableEq

def toJst (t : DateTime) : Clock :=
  let day := ((t.secs+jstOffset)%86400).toNat
  ⟨day/3600,day/60%60,day%60+t.nanos/1000000000⟩

def number (n : Nat) : Utf8 := ⟨decimal n,ascii_wellFormed _ fun b member => by
  have bounds := isDigit_bounds (decimal_digits n b member)
  exact UInt8.lt_iff_toNat_lt.mpr (Nat.lt_of_le_of_lt bounds.2 (by decide))⟩

def joined (parts : List Utf8) : Utf8 := parts.foldr Utf8.append Utf8.empty

def twoDigits (n : Nat) : Utf8 := if n < 10 then (number 0).append (number n) else number n

def clockText (clock : Clock) : Utf8 :=
  joined [twoDigits clock.hour,ascii ":",twoDigits clock.minute,ascii ":",twoDigits clock.second]

def middleDot : Utf8 := ⟨[32,0xC2,0xB7,32],rfl⟩

-- layout/rooms/views/message_list.rs
def ackedCount (deliveries : List Delivery) : Nat := (deliveries.filter fun d => d.ackedAt.isSome).length

def timestampsStr : MessageStatus → Utf8
  | .sent tx deliveries => joined [ascii "sent ",clockText (toJst tx),middleDot,number (ackedCount deliveries),ascii "/",
      number deliveries.length,ascii " ack"]
  | .received tx rx => joined [ascii "sent ",clockText (toJst tx),middleDot,ascii "recv ",clockText (toJst rx)]

def toAsciiLowercase (b : UInt8) : UInt8 := if 65 ≤ b ∧ b ≤ 90 then b+32 else b
def toAsciiUppercase (b : UInt8) : UInt8 := if 97 ≤ b ∧ b ≤ 122 then b-32 else b

def avatarLetter (name : Utf8) : List UInt8 :=
  let lower := name.bytes.map toAsciiLowercase
  if lower = (ascii "moon").bytes ∨ lower = (ascii "lunar").bytes then (ascii "L").bytes
  else if lower = (ascii "earth").bytes then (ascii "E").bytes
  else if lower = (ascii "mars").bytes then (ascii "M").bytes
  else match lower with
    | [] => (ascii "?").bytes
    | first :: rest => toAsciiUppercase first :: rest.takeWhile fun b => 0x80 ≤ b && b < 0xC0

structure Entry where
  letter : List UInt8
  name : Utf8
  color : Color
  timestamps : Utf8
  text : Utf8
  deriving DecidableEq

def entry (message : ChatMessage) : Entry where
  letter := avatarLetter message.sender.name
  name := message.sender.name
  color := getColor message.sender
  timestamps := timestampsStr message.shipmentStatus
  text := message.text

def entries (model : ChatModel) : List Entry := model.messages.map entry

inductive Told where
  | sent (tx : Clock) (acked total : Nat)
  | received (tx rx : Clock)
  deriving DecidableEq

def told : MessageStatus → Told
  | .sent tx deliveries => .sent (toJst tx) (ackedCount deliveries) deliveries.length
  | .received tx rx => .received (toJst tx) (toJst rx)

structure Clock.Shown (clock : Clock) : Prop where
  hour : clock.hour < 100
  minute : clock.minute < 100
  second : clock.second < 100

theorem toJst_shown (t : DateTime) : (toJst t).Shown := by
  have leap := t.nanos_range
  constructor <;> simp only [toJst] <;> omega

theorem twoDigits_length (small : n < 100) : (twoDigits n).bytes.length = 2 := by
  have all : ∀ n : Fin 100, (twoDigits n).bytes.length = 2 := by decide +kernel
  exact all ⟨n,small⟩

theorem value_twoDigits (n : Nat) : value (twoDigits n).bytes = n := by
  unfold twoDigits
  split
  · change value (zero :: decimal n) = n
    rw [value_cons,value_decimal]
    simp [digit,zero]
  · exact value_decimal n

theorem twoDigits_inj (same : (twoDigits m).bytes = (twoDigits n).bytes) : m = n := by
  rw [← value_twoDigits m,same,value_twoDigits]

def colon : List UInt8 := [58]

theorem clockText_bytes (clock : Clock) : (clockText clock).bytes = (twoDigits clock.hour).bytes ++
    (colon ++ ((twoDigits clock.minute).bytes ++ (colon ++ (twoDigits clock.second).bytes))) := by
  have last : (twoDigits clock.second).bytes ++ Utf8.empty.bytes = (twoDigits clock.second).bytes := List.append_nil _
  exact congrArg (fun seconds => (twoDigits clock.hour).bytes ++
    (colon ++ ((twoDigits clock.minute).bytes ++ (colon ++ seconds)))) last

theorem clockText_length {clock : Clock} (shown : clock.Shown) : (clockText clock).bytes.length = 8 := by
  simp [clockText_bytes,colon,twoDigits_length shown.hour,twoDigits_length shown.minute,twoDigits_length shown.second]

theorem clockText_inj {c d : Clock} (left : c.Shown) (right : d.Shown) (same : (clockText c).bytes = (clockText d).bytes) :
    c = d := by
  rw [clockText_bytes,clockText_bytes] at same
  obtain ⟨hours,rest⟩ := List.append_inj same ((twoDigits_length left.hour).trans (twoDigits_length right.hour).symm)
  have rest := List.append_cancel_left rest
  obtain ⟨minutes,rest⟩ := List.append_inj rest ((twoDigits_length left.minute).trans (twoDigits_length right.minute).symm)
  have seconds := List.append_cancel_left rest
  obtain ⟨hour,minute,second⟩ := c
  cases twoDigits_inj hours
  cases twoDigits_inj minutes
  cases twoDigits_inj seconds
  rfl

theorem number_cut {m n : Nat} (left : isDigit c = false) (right : isDigit d = false)
    (same : decimal m ++ c :: before = decimal n ++ d :: after) : m = n ∧ c :: before = d :: after := by
  have cut : ∀ n b rest, isDigit b = false → (decimal n ++ b :: rest).takeWhile isDigit = decimal n := by
    intro n b rest other
    rw [List.takeWhile_append_of_pos (decimal_digits n),List.takeWhile_cons_of_neg (by simp [other]),List.append_nil]
  have digits := congrArg (List.takeWhile isDigit) same
  rw [cut m c before left,cut n d after right] at digits
  rw [digits] at same
  refine ⟨?_,List.append_cancel_left same⟩
  rw [← value_decimal m,digits,value_decimal]

def sentTail (acked total : Nat) : List UInt8 := decimal acked ++ 47 :: (decimal total ++ 32 :: [97,99,107])

theorem sent_bytes (tx : DateTime) (deliveries : List Delivery) : (timestampsStr (.sent tx deliveries)).bytes =
    (ascii "sent ").bytes ++ ((clockText (toJst tx)).bytes ++
      (middleDot.bytes ++ sentTail (ackedCount deliveries) deliveries.length)) := rfl

theorem received_bytes (tx rx : DateTime) : (timestampsStr (.received tx rx)).bytes =
    (ascii "sent ").bytes ++ ((clockText (toJst tx)).bytes ++
      (middleDot.bytes ++ ((ascii "recv ").bytes ++ (clockText (toJst rx)).bytes))) := by
  have last : (clockText (toJst rx)).bytes ++ Utf8.empty.bytes = (clockText (toJst rx)).bytes := List.append_nil _
  exact congrArg (fun clock => (ascii "sent ").bytes ++ ((clockText (toJst tx)).bytes ++
    (middleDot.bytes ++ ((ascii "recv ").bytes ++ clock)))) last

theorem sentTail_inj (same : sentTail i m = sentTail j n) : i = j ∧ m = n := by
  obtain ⟨acked,rest⟩ := number_cut (by decide) (by decide) same
  exact ⟨acked,(number_cut (by decide) (by decide) (List.cons.inj rest).2).1⟩

theorem sentTail_ne (acked total : Nat) (rest : List UInt8) : sentTail acked total ≠ (ascii "recv ").bytes ++ rest := by
  intro same
  obtain ⟨first,more,digits⟩ := List.exists_cons_of_ne_nil (decimal_ne_nil acked)
  have head := decimal_digits acked first (by simp [digits])
  rw [sentTail,digits,List.cons_append] at same
  have letter : first = 114 := (List.cons.inj same).1
  rw [letter] at head
  cases head

theorem told_timestamps {a b : MessageStatus} (same : told a = told b) : timestampsStr a = timestampsStr b := by
  cases a with
  | sent tx deliveries =>
    cases b with
    | sent tx' deliveries' =>
      obtain ⟨clock,acked,total⟩ := Told.sent.inj same
      rw [timestampsStr,timestampsStr,clock,acked,total]
    | received tx' rx' => cases same
  | received tx rx =>
    cases b with
    | sent tx' deliveries' => cases same
    | received tx' rx' =>
      obtain ⟨early,late⟩ := Told.received.inj same
      rw [timestampsStr,timestampsStr,early,late]

-- The text tells the kind of the message, its times to the second and its counts, and no more.
theorem timestampsStr_iff (a b : MessageStatus) : timestampsStr a = timestampsStr b ↔ told a = told b := by
  have clocks : ∀ {c d : DateTime} {left right : List UInt8},
      (ascii "sent ").bytes ++ ((clockText (toJst c)).bytes ++ (middleDot.bytes ++ left)) =
        (ascii "sent ").bytes ++ ((clockText (toJst d)).bytes ++ (middleDot.bytes ++ right)) →
      toJst c = toJst d ∧ left = right := by
    intro c d left right same
    have lengths := (clockText_length (toJst_shown c)).trans (clockText_length (toJst_shown d)).symm
    obtain ⟨clock,rest⟩ := List.append_inj (List.append_cancel_left same) lengths
    exact ⟨clockText_inj (toJst_shown c) (toJst_shown d) clock,List.append_cancel_left rest⟩
  refine ⟨fun same => ?_,told_timestamps⟩
  · have same := congrArg Utf8.bytes same
    cases a with
    | sent tx deliveries =>
      cases b with
      | sent tx' deliveries' =>
        rw [sent_bytes,sent_bytes] at same
        obtain ⟨clock,tail⟩ := clocks same
        obtain ⟨acked,total⟩ := sentTail_inj tail
        rw [told,told,clock,acked,total]
      | received tx' rx' =>
        rw [sent_bytes,received_bytes] at same
        exact absurd (clocks same).2 (sentTail_ne _ _ _)
    | received tx rx =>
      cases b with
      | sent tx' deliveries' =>
        rw [sent_bytes,received_bytes] at same
        exact absurd (clocks same).2.symm (sentTail_ne _ _ _)
      | received tx' rx' =>
        rw [received_bytes,received_bytes] at same
        obtain ⟨clock,tail⟩ := clocks same
        have late := clockText_inj (toJst_shown rx) (toJst_shown rx') (List.append_cancel_left tail)
        rw [told,told,clock,late]

example : (timestampsStr (.received ⟨1784556001,959000000,by decide,by decide⟩ ⟨1784556059,1000000000,by decide,by decide⟩)).bytes =
  (ascii "sent 23:00:01 ").bytes ++ [0xC2,0xB7] ++ (ascii " recv 23:00:60").bytes := by decide +kernel

inductive Told.Le : Told → Told → Prop where
  | sent (more : acked ≤ later) : Told.Le (.sent tx acked total) (.sent tx later total)
  | received : Told.Le (.received tx rx) (.received tx rx)

theorem Told.Le.refl (told : Told) : Told.Le told told := by
  cases told with
  | sent tx acked total => exact .sent le_rfl
  | received tx rx => exact .received

theorem Told.Le.trans {a b c : Told} (early : Told.Le a b) (late : Told.Le b c) : Told.Le a c := by
  cases early with
  | sent first =>
    cases late with
    | sent second => exact .sent (first.trans second)
  | received =>
    cases late with
    | received => exact .received

structure Later (a b : ChatMessage) : Prop where
  uuid : b.uuid = a.uuid
  drawn : ∃ timestamps, entry b = {entry a with timestamps := timestamps}
  told : Told.Le (told a.shipmentStatus) (told b.shipmentStatus)

instance : Std.Refl Later := ⟨fun _ => ⟨rfl,⟨_,rfl⟩,.refl _⟩⟩

instance : IsTrans ChatMessage Later where
  trans _ _ _ early late := by
    refine ⟨late.uuid.trans early.uuid,?_,early.told.trans late.told⟩
    obtain ⟨first,drawn⟩ := early.drawn
    obtain ⟨second,again⟩ := late.drawn
    exact ⟨second,by rw [again,drawn]⟩

theorem markDelivery_counts {deliveries : List Delivery} (marked : markDelivery ackerUuid ackTime deliveries = some result) :
    ackedCount deliveries ≤ ackedCount result ∧ result.length = deliveries.length := by
  obtain ⟨early,d,late,rfl,_,rfl⟩ := markDelivery_parts marked
  refine ⟨?_,by simp⟩
  simp only [ackedCount,List.filter_append,List.filter_cons,List.length_append,Option.isSome_some,↓reduceIte,List.length_cons]
  split <;> simp

theorem markAck_later (message : ChatMessage) (ackerUuid : Utf8) (ackTime : DateTime) :
    Later message (message.markAck ackerUuid ackTime).1 := by
  unfold ChatMessage.markAck
  split
  · rename_i tx deliveries status
    split
    · rename_i result marked
      obtain ⟨more,length⟩ := markDelivery_counts marked
      refine ⟨rfl,⟨_,rfl⟩,?_⟩
      rw [status,told,told,length]
      exact .sent more
    · exact Std.Refl.refl message
  · exact Std.Refl.refl message

theorem markFirst_later (messageUuid ackerUuid : Utf8) (ackTime : DateTime) (messages : List ChatMessage) :
    Multiset.Rel Later (messages : Multiset ChatMessage) (markFirst messageUuid ackerUuid ackTime messages).1 := by
  induction messages with
  | nil => exact .zero
  | cons message rest ih =>
    rw [markFirst]
    split
    · change Multiset.Rel Later (message ::ₘ rest) ((message.markAck ackerUuid ackTime).1 ::ₘ rest)
      exact Multiset.Rel.cons (markAck_later message ackerUuid ackTime) (Multiset.rel_refl_of_refl_on fun m _ => Std.Refl.refl m)
    · exact Multiset.Rel.cons (Std.Refl.refl message) ih

def bag (model : ChatModel) : Multiset ChatMessage := model.messages

theorem addMessage_grows (binary : BinarySearch ChatMessage) {model : ChatModel} (ordered : InOrder model)
    (newMsg : ChatMessage) (direction : MessageDirection) :
    Grows Later (bag model) (bag (model.addMessage binary newMsg direction)) := by
  obtain ⟨inside,_⟩ := binary.index_splits (Sorted.ordered ordered newMsg)
  rw [bag,bag,addMessage_messages,Multiset.coe_eq_coe.mpr (List.perm_insertIdx newMsg model.messages inside)]
  exact grows_more (Multiset.le_cons_self _ _)

theorem sortMessages_bag (model : ChatModel) (strat : SortStrategy) : bag (model.sortMessages strat) = bag model := by
  rw [bag,sortMessages_messages]
  exact Multiset.coe_eq_coe.mpr (sortBy_perm _ _)

theorem onAckReceived_grows (model : ChatModel) (messageUuid ackerUuid : Utf8) (isRead : Bool) (ackTime : DateTime) :
    Grows Later (bag model) (bag (model.onAckReceived messageUuid ackerUuid isRead ackTime)) := by
  obtain ⟨notified,same⟩ := onAckReceived_notified model messageUuid ackerUuid isRead ackTime
  rw [same]
  exact grows_rel (markFirst_later messageUuid ackerUuid ackTime model.messages)

theorem handleDeserialized_grows {node : Node} (observed : Observed node) (ordered : InOrder node.model) (platform : Platform)
    (endpoint : Option Endpoint) (read : Option DeserializedMessage) :
    Grows Later (bag node.model) (bag (node.handleDeserialized platform endpoint read).1.model) := by
  cases read with
  | none => exact grows_refl _
  | some read =>
    cases read with
    | chatMessage message =>
      simp only [Node.handleDeserialized]
      rcases observed with deaf | heard
      · rw [Node.notifyObservers,deaf]
        exact grows_refl _
      · rw [notifyObservers_only heard]
        exact addMessage_grows platform.binary ordered message .received
    | ack messageUuid isRead ackTime ackerUuid =>
      simp only [Node.handleDeserialized]
      rcases observed with deaf | heard
      · rw [Node.handleAckReceived,deaf]
        exact grows_refl _
      · rw [handleAckReceived_only heard]
        exact onAckReceived_grows node.model messageUuid ackerUuid isRead ackTime

theorem step_grows {platform : Platform} {s t : Machine} (wired : Wired s) (taken : Steps platform s event t) :
    Grows Later (bag s.node.model) (bag t.node.model) := by
  rcases step_parts taken with ⟨endpoint,later,bound,_,_,rfl⟩ | ⟨_,_,rfl⟩ | ⟨listener,payload,_,rfl⟩ |
    ⟨task,now,peerAddr,listener,payload,_,_,_,rfl⟩ | ⟨uuid,text,now,predict,_,rfl⟩ | ⟨strat,_,rfl⟩
  · exact grows_refl _
  · exact grows_refl _
  · exact grows_refl _
  · exact handleDeserialized_grows wired.observed wired.inOrder platform _ _
  · obtain ⟨notified,model⟩ := manageSend_model platform predict s.node.model
      ⟨uuid,none,s.node.model.localpeer,text,.sent now.time []⟩
    rw [Machine.send,model]
    exact addMessage_grows platform.binary wired.inOrder _ .sent
  · rw [Machine.sort,sortMessages_bag]
    exact grows_refl _

def CountsUp (m n : ChatMessage) : Prop :=
  n.uuid = m.uuid ∧ (entry n = entry m ∨ (∃ timestamps, entry n = {entry m with timestamps := timestamps}) ∧
    ∃ tx acked later total, told m.shipmentStatus = .sent tx acked total ∧ told n.shipmentStatus = .sent tx later total ∧
      acked < later ∧ later ≤ total)

theorem told_bounded (counted : told status = .sent tx acked total) : acked ≤ total := by
  cases status with
  | sent sent deliveries =>
    cases counted
    exact List.length_filter_le _ _
  | received sent arrival => cases counted

theorem later_counts (later : Later m n) : CountsUp m n := by
  refine ⟨later.uuid,?_⟩
  by_cases same : told m.shipmentStatus = told n.shipmentStatus
  · left
    obtain ⟨timestamps,drawn⟩ := later.drawn
    have shown : (entry n).timestamps = (entry m).timestamps := (told_timestamps same).symm
    rw [drawn] at shown
    rw [drawn,show timestamps = (entry m).timestamps from shown]
  · right
    refine ⟨later.drawn,?_⟩
    have grown := later.told
    cases before : told m.shipmentStatus with
    | received tx rx =>
      rw [before] at same grown
      generalize told n.shipmentStatus = after at same grown
      cases grown
      exact absurd rfl same
    | sent tx acked total =>
      rw [before] at same grown
      cases after : told n.shipmentStatus with
      | received tx' rx' =>
        rw [after] at grown
        cases grown
      | sent tx' later' total' =>
        rw [after] at same grown
        cases grown with
        | sent more =>
          have bound := told_bounded after
          refine ⟨_,_,_,_,rfl,rfl,lt_of_le_of_ne more ?_,bound⟩
          rintro rfl
          exact same rfl

theorem entries_count_up (before : Run (Steps platform) (boot localPeer peers demo) events s)
    (run : Run (Steps platform) s later t) : Grows CountsUp (bag s.node.model) (bag t.node.model) := by
  have wired : ∀ u event v, Wired u → Steps platform u event v → Wired v := fun u event v here taken => (step_wired here taken).1
  have start := before.preserves wired (boot_wired localPeer peers demo)
  have kept : ∀ u event v, Wired u ∧ Grows Later (bag s.node.model) (bag u.node.model) → Steps platform u event v →
      Wired v ∧ Grows Later (bag s.node.model) (bag v.node.model) := by
    intro u event v ⟨here,grown⟩ taken
    exact ⟨wired u event v here taken,grows_trans grown (step_grows here taken)⟩
  have whole := run.preserves kept ⟨start,grows_refl _⟩
  exact grows_mono whole.2 fun m n => later_counts

def hello : ChatMessage := ⟨ascii "hello",none,earth,ascii "hi",.sent epoch.time []⟩

def ackWire : List UInt8 := (sendAckMessage (ascii "reply") epoch hello moon.uuid false).getD []

def asked : List NodeEvent := [.bind true,.addObserver,.send hello.uuid hello.text epoch fun _ => none]

def answered : List NodeEvent := [.read earthListener ackWire,.handle 0 epoch none]

def shownTimes (s : Machine) : List (List UInt8) := (entries s.node.model).map fun entry => entry.timestamps.bytes

theorem entries_count_up_hello : ∃ s t, Run (Steps loopback) (boot earth [moon] []) asked s ∧ Run (Steps loopback) s answered t ∧
    shownTimes s ≠ shownTimes t ∧ Grows CountsUp (bag s.node.model) (bag t.node.model) := by
  have through : (follow (step loopback) (boot earth [moon] []) asked).isSome = true := by decide +kernel
  obtain ⟨s,ended⟩ := Option.isSome_iff_exists.mp through
  have counted : ((follow (step loopback) (boot earth [moon] []) asked).bind fun s =>
      (follow (step loopback) s answered).map fun t => decide (shownTimes s ≠ shownTimes t)) = some true := by decide +kernel
  rw [ended,Option.bind_some] at counted
  obtain ⟨t,further,other⟩ := Option.map_eq_some_iff.mp counted
  have before : Run (Steps loopback) (boot earth [moon] []) asked s := Run.of_follow ended
  have run : Run (Steps loopback) s answered t := Run.of_follow further
  exact ⟨s,t,before,run,of_decide_eq_true other,entries_count_up before run⟩

end DTChat.MessageList
