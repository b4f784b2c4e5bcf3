import DTChat.ViewOrder
import DTChat.WireRoundTrip

namespace DTChat.TimelineRows
open ClockTime Utf8Text PeerMessages ChatModels ViewOrder

-- utils/config.rs: the colour of a peer, or gray for a uuid nobody has.
inductive Color where
  | pink
  | yellow
  | white
  | lightBlue
  | gray
  deriving DecidableEq

def getColor (peer : Peer) : Color :=
  match peer.color.toNat % 4 with
  | 0 => .pink
  | 1 => .yellow
  | 2 => .white
  | 3 => .lightBlue
  | _ => .white

-- layout/rooms/views/message_graph.rs. Milliseconds and rows are f64 there: whole and
-- half numbers, exact as long as they stay below 2^52.
def windowDurationMs : ℚ := 300000
def minBarMs : ℚ := 500
def visibleRows : Nat := 12

def millis (t : DateTime) : ℚ := t.timestampMillis.toInt

structure BoxElem where
  row : ℚ
  startMs : ℚ
  endMs : ℚ
  name : Utf8
  color : Color
  confirmed : Bool
  deriving DecidableEq

structure Series where
  name : Utf8
  color : Color
  elems : List BoxElem
  deriving DecidableEq

structure Bar where
  peerUuid : Utf8
  peerName : Utf8
  color : Color
  startMs : ℚ
  endMs : ℚ
  confirmed : Bool
  label : Utf8
  deriving DecidableEq

def Bar.elem (bar : Bar) (row : ℚ) : BoxElem := ⟨row,bar.startMs,bar.endMs,bar.label,bar.color,bar.confirmed⟩

def pushBar (bar : Bar) (row : ℚ) : List (Utf8 × Series) → List (Utf8 × Series)
  | [] => [(bar.peerUuid,⟨bar.peerName,bar.color,[bar.elem row]⟩)]
  | (uuid,serie) :: rest =>
    if uuid = bar.peerUuid then (uuid,{serie with elems := serie.elems ++ [bar.elem row]}) :: rest
    else (uuid,serie) :: pushBar bar row rest

def receivedBar (message : ChatMessage) (tx rx : DateTime) : Bar :=
  ⟨message.sender.uuid,message.sender.name,getColor message.sender,millis tx,max (millis rx) (millis tx+minBarMs),true,
    message.text⟩

def deliveryBar (colorOf : Utf8 → Color) (message : ChatMessage) (tx : DateTime) (delivery : Delivery) : Bar :=
  let arrival := ((delivery.predictedArrival.or delivery.ackedAt).map millis).getD (millis tx)
  ⟨delivery.peerUuid,delivery.peerName,colorOf delivery.peerUuid,millis tx,max arrival (millis tx+minBarMs),
    delivery.ackedAt.isSome,(message.text.append (ascii " -> ")).append delivery.peerName⟩

-- What the loop carries along: series by peer, the next row, the furthest arrival.
structure Layout where
  series : List (Utf8 × Series)
  row : ℚ
  maxEndMs : ℚ
  deriving DecidableEq

def Layout.place (layout : Layout) (bar : Bar) : Layout :=
  ⟨pushBar bar layout.row layout.series,layout.row+1,max layout.maxEndMs bar.endMs⟩

def placeMessage (colorOf : Utf8 → Color) (layout : Layout) (message : ChatMessage) : Layout :=
  match message.shipmentStatus with
  | .received tx rx => layout.place (receivedBar message tx rx)
  | .sent tx deliveries =>
    deliveries.foldl (fun layout delivery => layout.place (deliveryBar colorOf message tx delivery)) layout

def colorOf (model : ChatModel) (uuid : Utf8) : Color :=
  (((model.peers ++ [model.localpeer]).find? fun p => p.uuid = uuid).map getColor).getD .gray

def layOut (now : UtcNow) (model : ChatModel) : Layout :=
  model.messages.foldl (placeMessage (colorOf model)) ⟨[],0,millis now.time⟩

def Layout.xHi (layout : Layout) (now : UtcNow) : ℚ := max (millis now.time) layout.maxEndMs
def Layout.xLo (layout : Layout) (now : UtcNow) : ℚ := layout.xHi now-windowDurationMs
def Layout.yHi (layout : Layout) : ℚ := layout.row+1/2
def Layout.yLo (layout : Layout) : ℚ := if (visibleRows : ℚ) < layout.row then layout.row-visibleRows+1/2 else -1/2

def bars (colorOf : Utf8 → Color) (message : ChatMessage) : List Bar :=
  match message.shipmentStatus with
  | .received tx rx => [receivedBar message tx rx]
  | .sent tx deliveries => deliveries.map (deliveryBar colorOf message tx)

def timeline (model : ChatModel) : List Bar := model.messages.flatMap (bars (colorOf model))

def drawn (series : List (Utf8 × Series)) : List (Utf8 × BoxElem) :=
  series.flatMap fun entry => entry.2.elems.map fun elem => (entry.1,elem)

structure NewestInView (now : UtcNow) (model : ChatModel) : Prop where
  rows : (drawn (layOut now model).series).Perm
    ((timeline model).zipIdx.map fun placed => (placed.1.peerUuid,placed.1.elem placed.2))
  window : ∀ row : Nat, row < (timeline model).length →
    ((layOut now model).yLo ≤ row ∧ (row : ℚ) ≤ (layOut now model).yHi ↔
      (timeline model).length-min (timeline model).length visibleRows ≤ row)

theorem pushBar_drawn (bar : Bar) (row : ℚ) (series : List (Utf8 × Series)) :
    (drawn (pushBar bar row series)).Perm (drawn series ++ [(bar.peerUuid,bar.elem row)]) := by
  induction series with
  | nil => exact List.Perm.refl _
  | cons entry rest ih =>
    obtain ⟨uuid,serie⟩ := entry
    rw [pushBar]
    unfold drawn at ih ⊢
    split
    · rename_i same
      simp only [List.flatMap_cons,List.map_append,List.map_singleton,List.append_assoc,same]
      exact List.perm_append_comm.append_left _
    · simp only [List.flatMap_cons,List.append_assoc]
      exact ih.append_left _

theorem placeMessage_bars (colorOf : Utf8 → Color) (layout : Layout) (message : ChatMessage) :
    placeMessage colorOf layout message = (bars colorOf message).foldl Layout.place layout := by
  unfold placeMessage bars
  split
  · rfl
  · rw [List.foldl_map]

theorem layOut_timeline (now : UtcNow) (model : ChatModel) :
    layOut now model = (timeline model).foldl Layout.place ⟨[],0,millis now.time⟩ := by
  unfold layOut timeline
  rw [List.foldl_flatMap]
  congr 1
  funext layout message
  exact placeMessage_bars _ layout message

theorem place_rows (placed : List Bar) (layout : Layout) (next : Nat) (here : layout.row = next) :
    (placed.foldl Layout.place layout).row = (next+placed.length : Nat) ∧
    (drawn (placed.foldl Layout.place layout).series).Perm
      (drawn layout.series ++ (placed.zipIdx next).map fun bar => (bar.1.peerUuid,bar.1.elem bar.2)) := by
  induction placed generalizing layout next with
  | nil => simp [here]
  | cons bar rest ih =>
    have advanced : (layout.place bar).row = (next+1 : Nat) := by
      simp only [Layout.place,here,Nat.cast_add,Nat.cast_one]
    obtain ⟨row,series⟩ := ih (layout.place bar) (next+1) advanced
    rw [List.foldl_cons]
    constructor
    · rw [row,List.length_cons]
      congr 1
      omega
    · refine series.trans ?_
      rw [List.zipIdx_cons,List.map_cons,← here,← List.singleton_append,← List.append_assoc]
      exact (pushBar_drawn bar layout.row layout.series).append_right _

theorem layOut_row (now : UtcNow) (model : ChatModel) : (layOut now model).row = ((timeline model).length : ℚ) := by
  rw [layOut_timeline,(place_rows (timeline model) ⟨[],0,millis now.time⟩ 0 rfl).1,Nat.zero_add]

theorem layOut_drawn (now : UtcNow) (model : ChatModel) : (drawn (layOut now model).series).Perm
    ((timeline model).zipIdx.map fun placed => (placed.1.peerUuid,placed.1.elem placed.2)) := by
  rw [layOut_timeline]
  exact (place_rows (timeline model) ⟨[],0,millis now.time⟩ 0 rfl).2

-- With more than twelve rows, the twelfth newest lies half a row below the lower bound.
theorem in_view_iff (now : UtcNow) (model : ChatModel) {row : Nat} (laid : row < (timeline model).length) :
    ((layOut now model).yLo ≤ row ∧ (row : ℚ) ≤ (layOut now model).yHi) ↔
      (timeline model).length ≤ visibleRows ∨ (timeline model).length ≤ row+11 := by
  have below : (row : ℚ)+1 ≤ (timeline model).length := by exact_mod_cast laid
  have bottom : (0 : ℚ) ≤ row := Nat.cast_nonneg row
  have upper : (row : ℚ) ≤ (layOut now model).yHi := by
    rw [Layout.yHi,layOut_row]
    linarith
  rw [Layout.yLo,layOut_row]
  by_cases many : visibleRows < (timeline model).length
  · have few : ¬(timeline model).length ≤ visibleRows := Nat.not_le.mpr many
    rw [if_pos (by exact_mod_cast many),or_iff_right few]
    simp only [upper,and_true,visibleRows,Nat.cast_ofNat]
    constructor
    · intro inside
      have close : ((timeline model).length : ℚ) < (row+12 : Nat) := by
        push_cast
        linarith
      have counted : (timeline model).length < row+12 := by exact_mod_cast close
      omega
    · intro newest
      have counted : ((timeline model).length : ℚ) ≤ (row+11 : Nat) := by exact_mod_cast newest
      push_cast at counted
      linarith
  · have few := Nat.not_lt.mp many
    rw [if_neg (by exact_mod_cast many)]
    refine ⟨fun _ => .inl few,fun _ => ⟨?_,upper⟩⟩
    linarith

theorem newest_in_view_iff (now : UtcNow) (model : ChatModel) :
    NewestInView now model ↔ (timeline model).length ≤ visibleRows := by
  constructor
  · intro newest
    apply Nat.le_of_not_lt
    intro many
    have laid : (timeline model).length-visibleRows < (timeline model).length := by
      simp only [visibleRows] at many ⊢
      omega
    have seen := (newest.window _ laid).mpr (by rw [Nat.min_eq_right (Nat.le_of_lt many)])
    rw [in_view_iff now model laid] at seen
    simp only [visibleRows] at many seen
    omega
  · intro few
    refine ⟨layOut_drawn now model,fun row laid => ?_⟩
    rw [in_view_iff now model laid,Nat.min_eq_left few,Nat.sub_self]
    exact ⟨fun _ => Nat.zero_le row,fun _ => .inl few⟩

def arrived (n : Nat) : ChatMessage :=
  ⟨(ascii "moon-").append (ascii (Nat.repr n)),none,theirs.sender,ascii "hello",.received (tick n) (tick (n+1))⟩

def moonTalk : ChatModel := {ChatModel.new [theirs.sender] ours.sender with messages := (List.range 13).map arrived}

theorem twelfth_newest_hidden : (timeline moonTalk).length = 13 ∧
    (layOut WireRoundTrip.epoch moonTalk).yLo = 3/2 ∧ (layOut WireRoundTrip.epoch moonTalk).yHi = 27/2 ∧
    ¬∀ now model, NewestInView now model := by
  have size : (timeline moonTalk).length = 13 := by decide +kernel
  have low : (layOut WireRoundTrip.epoch moonTalk).yLo = 3/2 := by
    rw [Layout.yLo,layOut_row,size]
    norm_num [visibleRows]
  have high : (layOut WireRoundTrip.epoch moonTalk).yHi = 27/2 := by
    rw [Layout.yHi,layOut_row,size]
    norm_num
  refine ⟨size,low,high,fun claimed => ?_⟩
  have seen := ((claimed WireRoundTrip.epoch moonTalk).window 1 (by rw [size]; decide)).mpr (by rw [size]; decide)
  rw [low] at seen
  norm_num at seen

end DTChat.TimelineRows
